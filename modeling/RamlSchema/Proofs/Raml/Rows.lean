import RamlSchema.Proofs.Text.Lines
import RamlSchema.Proofs.Text.Trim
import RamlSchema.Raml.Source

/-!
# Written rows

A row is a text behind a number of spaces. Rows that are no comments and have nothing to trim are
read as the lines that they were written as.
-/

namespace RamlSchema.Raml

open Text (IsUnbroken isBlank spaces)

/-- A text on one line without blanks at its ends. -/
structure Phrase where
  text : String
  trimmed : Text.trim text = text
  unbroken : IsUnbroken text

/-- A text that is neither trimmed nor passed over nor cut when it is read. -/
structure IsPlain (text : String) : Prop where
  nonempty : text ≠ ""
  head : ∀ c ∈ text.toList.head?, isBlank c = false ∧ c ≠ '#'
  last : ∀ c ∈ text.toList.getLast?, isBlank c = false
  unbroken : IsUnbroken text

namespace IsPlain

theorem iff_all {text : String} :
    IsPlain text ↔ text ≠ "" ∧ text.toList.head?.all (fun c => !isBlank c && c != '#') = true ∧
      text.toList.getLast?.all (fun c => !isBlank c) = true ∧ IsUnbroken text := by
  simp only [Option.all_eq_true, Bool.and_eq_true, Bool.not_eq_true', bne_iff_ne]
  exact ⟨fun ⟨h₁, h₂, h₃, h₄⟩ => ⟨h₁, h₂, h₃, h₄⟩, fun ⟨h₁, h₂, h₃, h₄⟩ => ⟨h₁, h₂, h₃, h₄⟩⟩

instance (text : String) : Decidable (IsPlain text) := decidable_of_iff' _ iff_all

theorem trim_eq {text : String} (hplain : IsPlain text) : Text.trim text = text :=
  Text.trim_eq_self_iff.mpr ⟨fun c hc => (hplain.head c hc).1, hplain.last⟩

theorem isSkipped_eq {text : String} (hplain : IsPlain text) : Line.isSkipped text = false := by
  have hempty : text.isEmpty = false := by simpa using hplain.nonempty
  have hcomment : Text.startsWith text "#" = false :=
    Text.startsWith_eq_false_of_head (by decide) fun hhead =>
      (hplain.head '#' (by rw [hhead]; rfl)).2 rfl
  rw [Line.isSkipped, hempty, hcomment]
  rfl

/-- What stands between a plain text and the end of a plain text does not matter. -/
theorem append {lead : String} (hlead : IsPlain lead) {gap : String} (hgap : IsUnbroken gap)
    {ending : String} (hne : ending ≠ "") (hlast : ∀ c ∈ ending.toList.getLast?, isBlank c = false)
    (hending : IsUnbroken ending) : IsPlain (lead ++ gap ++ ending) where
  nonempty := by simp [hne]
  head := by
    rw [String.append_assoc, String.toList_append,
      List.head?_append_of_ne_nil _ (mt String.toList_eq_nil_iff.mp hlead.nonempty)]
    exact hlead.head
  last := by
    rw [String.toList_append,
      List.getLast?_append_of_ne_nil _ (mt String.toList_eq_nil_iff.mp hne)]
    exact hlast
  unbroken := by
    rw [Text.isUnbroken_append, Text.isUnbroken_append]
    exact ⟨⟨hlead.unbroken, hgap⟩, hending⟩

theorem append_phrase {lead : String} (hlead : IsPlain lead) (phrase : Phrase)
    (hne : phrase.text ≠ "") : IsPlain (lead ++ " " ++ phrase.text) :=
  hlead.append (by decide) hne (Text.trim_eq_self_iff.mp phrase.trimmed).2 phrase.unbroken

theorem heading (phrase : Phrase) (hhead : phrase.text.toList.head? ≠ some '#') :
    IsPlain (phrase.text ++ ":") := by
  by_cases hempty : phrase.text = ""
  · rw [hempty]
    decide
  · have hends := Text.trim_eq_self_iff.mp phrase.trimmed
    have hphrase : IsPlain phrase.text :=
      ⟨hempty, fun c hc => ⟨hends.1 c hc, fun heq => hhead (heq ▸ hc)⟩, hends.2, phrase.unbroken⟩
    have hcolon : IsPlain ":" := by decide
    have hheading : IsPlain (phrase.text ++ "" ++ ":") :=
      hphrase.append (by decide) hcolon.nonempty hcolon.last hcolon.unbroken
    rwa [String.append_empty] at hheading

end IsPlain

structure Row where
  indent : Nat
  text : String
  deriving DecidableEq, Repr

namespace Row

def source (row : Row) : String := spaces row.indent ++ row.text

/-- A facet's name, and behind it the value that it has, if any. -/
def keyed (indent : Nat) (key : String) (value : Phrase) : Row :=
  ⟨indent, if value.text = "" then key else key ++ " " ++ value.text⟩

/-- The lines that rows are read as, with the numbers from `first` on. -/
def place (first : Int) : List Row → List Line
  | [] => []
  | row :: rows => ⟨first, row.indent, row.text⟩ :: place (first + 1) rows

@[simp]
theorem place_nil (first : Int) : place first [] = [] := rfl

@[simp]
theorem place_cons (first : Int) (row : Row) (rows : List Row) :
    place first (row :: rows) = ⟨first, row.indent, row.text⟩ :: place (first + 1) rows := rfl

theorem place_append (first : Int) (rows rest : List Row) :
    place first (rows ++ rest) = place first rows ++ place (first + rows.length) rest := by
  induction rows generalizing first with
  | nil => simp
  | cons row rows ih =>
    have hnext : first + 1 + (rows.length : Int) = first + ((row :: rows).length : Int) := by
      rw [List.length_cons]
      omega
    rw [List.cons_append, place_cons, place_cons, ih, hnext, List.cons_append]

theorem exists_of_mem_place {first : Int} {rows : List Row} {line : Line}
    (hline : line ∈ place first rows) : ∃ row ∈ rows, line.indent = row.indent := by
  induction rows generalizing first with
  | nil => exact absurd hline List.not_mem_nil
  | cons row rows ih =>
    rcases List.mem_cons.mp hline with rfl | hline
    · exact ⟨row, List.mem_cons_self, rfl⟩
    · obtain ⟨other, hother, hindent⟩ := ih hline
      exact ⟨other, List.mem_cons_of_mem row hother, hindent⟩

theorem isPlain_keyed {indent : Nat} {key : String} (hkey : IsPlain key) (value : Phrase) :
    IsPlain (keyed indent key value).text := by
  rw [keyed]
  split
  · exact hkey
  · exact hkey.append_phrase value (by assumption)

/-- The value behind a facet's name is read back. -/
@[simp]
theorem facet?_keyed (indent : Nat) (key : String) (value : Phrase) :
    Line.facet? key (keyed indent key value).text = some value.text := by
  rw [keyed, Line.facet?]
  split
  case isTrue hempty =>
    have hkey : Text.dropPrefix? key key = some "" :=
      Text.dropPrefix?_eq_some_iff.mpr String.append_empty.symm
    rw [hkey, hempty]
    rfl
  case isFalse =>
    have htrim : Text.trim (" " ++ value.text) = value.text :=
      Text.trim_spaces_append value.trimmed 1
    rw [String.append_assoc, Text.dropPrefix?_append, Option.map_some, htrim]

theorem facet?_eq_none_of_head {key text : String} (hkey : key ≠ "")
    (hhead : text.toList.head? ≠ key.toList.head?) : Line.facet? key text = none := by
  rw [Line.facet?, Text.dropPrefix?_eq_none_of_head hkey hhead]
  rfl

/-! ### Rows as lines of a file -/

theorem ofSource_source {row : Row} (hplain : IsPlain row.text) (number : Int) :
    Line.ofSource number row.source = ⟨number, row.indent, row.text⟩ := by
  rw [Line.ofSource, source, Text.indentation_spaces_append hplain.trim_eq hplain.nonempty,
    Text.trim_spaces_append hplain.trim_eq]

theorem significant_map_source {rows : List Row} (hplain : ∀ row ∈ rows, IsPlain row.text)
    (first : Int) : Line.significant first (rows.map source) = place first rows := by
  induction rows generalizing first with
  | nil => rfl
  | cons row rows ih =>
    have hrow : IsPlain row.text := hplain row List.mem_cons_self
    have hrest : Line.significant (first + 1) (rows.map source) = place (first + 1) rows :=
      ih (fun r hr => hplain r (List.mem_cons_of_mem row hr)) (first + 1)
    rw [Line.significant] at hrest ⊢
    rw [List.map_cons, Line.numbered, ofSource_source hrow,
      List.filter_cons_of_pos (by simp [hrow.isSkipped_eq]), hrest, place_cons]

theorem isUnbroken_source {row : Row} (hplain : IsPlain row.text) : IsUnbroken row.source := by
  rw [source, Text.isUnbroken_append]
  refine ⟨?_, hplain.unbroken⟩
  intro c hc
  rw [spaces, String.toList_ofList] at hc
  rw [List.eq_of_mem_replicate hc]
  decide

theorem hasTab_source {row : Row} (hplain : IsPlain row.text) :
    Source.hasTab row.source = false := by
  have hindent : (row.source.toList.takeWhile isBlank).contains '\t' = false := by
    rw [source, Text.takeWhile_spaces_append hplain.trim_eq hplain.nonempty]
    simp
  rw [Source.hasTab, hindent, Bool.and_false]

end Row

end RamlSchema.Raml
