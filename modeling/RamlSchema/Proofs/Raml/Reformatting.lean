import RamlSchema.Proofs.Raml.Moved
import RamlSchema.Proofs.Text.Trim

/-!
# Blank lines, comments and trailing blanks

Lines that are passed over may be left out or put in anywhere, and blanks may stand at the end of
any line: a file declares the same types, and its findings are the same but for the numbers of
lines. The readers never see such lines, so all that has to be shown is that the numbers of the
other lines go into the findings alone.
-/

namespace RamlSchema.Raml

open Text (AllBlank)

/-! ### Reading without line numbers -/

namespace Library

def Progress.unplaced (progress : Progress) : Progress :=
  { progress with findings := progress.findings.unplaced }

variable (convention : Convention) (line : Line) (following : List Line) (progress : Progress)

theorem readMember_moved (type : Declaration) :
    readMember convention (line.moved 0) (following.map (Line.moved 0)) type progress.unplaced =
      (readMember convention line following type progress).unplaced := by
  rw [readMember, readMember, Line.moved_text]
  split
  · rfl
  · cases Line.heading? line.text with
    | none => rfl
    | some heading =>
      simp only [resolveHeading_moved, Resolution.findings_unplaced]
      rw [Progress.unplaced, Progress.unplaced, Report.Findings.unplaced_append]
      rfl

theorem readBody_moved (type : Declaration) :
    readBody convention (line.moved 0) (following.map (Line.moved 0)) type progress.unplaced =
      (readBody convention line following type progress).unplaced := by
  rw [readBody, readBody, Line.moved_indent, Nat.add_zero]
  split
  · rfl
  · split
    · exact readMember_moved convention line following progress type
    · rfl

theorem readSection_moved :
    readSection (line.moved 0) progress.unplaced = (readSection line progress).unplaced := by
  rw [readSection, readSection, Line.moved_text]
  split
  · rfl
  · have hinTypes : progress.unplaced.inTypes = progress.inTypes := rfl
    rw [hinTypes]
    split <;> rfl

theorem readLine_moved :
    readLine convention (line.moved 0) (following.map (Line.moved 0)) progress.unplaced =
      (readLine convention line following progress).unplaced := by
  have hinTypes : progress.unplaced.inTypes = progress.inTypes := rfl
  have hcurrent : progress.unplaced.current = progress.current := rfl
  rw [readLine, readLine, Line.moved_indent, Nat.add_zero, Line.moved_text, hinTypes, hcurrent]
  split
  · exact readSection_moved line progress
  · split
    · rfl
    · split
      · rfl
      · cases progress.current with
        | none => rfl
        | some type => exact readBody_moved convention line following progress type

theorem read_moved (lines : List Line) :
    read convention progress.unplaced (lines.map (Line.moved 0)) =
      (read convention progress lines).unplaced := by
  induction lines generalizing progress with
  | nil => rfl
  | cons line following ih => rw [List.map_cons, read, readLine_moved, ih, read]

theorem types_moved (lines : List Line) :
    types convention (lines.map (Line.moved 0)) =
      ((types convention lines).1, (types convention lines).2.unplaced) := by
  have hread := read_moved convention {} lines
  change read convention {} _ = _ at hread
  rw [types, hread]
  rfl

end Library

namespace SingleType

def Progress.unplaced (progress : Progress) : Progress :=
  { progress with findings := progress.findings.unplaced }

variable (convention : Convention) (line : Line) (following : List Line) (progress : Progress)

theorem readFacet_moved :
    readFacet (line.moved 0) progress.unplaced = (readFacet line progress).unplaced := by
  rw [readFacet, readFacet, Line.moved_text]
  cases Line.facet? "description:" line.text with
  | some description => rfl
  | none =>
    simp only
    split
    · rfl
    · split <;> rfl

theorem readMember_moved :
    readMember convention (line.moved 0) (following.map (Line.moved 0)) progress.unplaced =
      (readMember convention line following progress).unplaced := by
  have hinside : progress.unplaced.inside = progress.inside := rfl
  rw [readMember, readMember, Line.moved_text, hinside]
  split
  · rfl
  · rfl
  · cases Line.heading? line.text with
    | none => rfl
    | some heading =>
      have htype : progress.unplaced.type = progress.type := rfl
      simp only [htype, resolveHeading_moved, Resolution.findings_unplaced]
      rw [Progress.unplaced, Progress.unplaced, Report.Findings.unplaced_append]
      rfl

theorem readLine_moved :
    readLine convention (line.moved 0) (following.map (Line.moved 0)) progress.unplaced =
      (readLine convention line following progress).unplaced := by
  rw [readLine, readLine, Line.moved_indent, Nat.add_zero]
  split
  · exact readFacet_moved line progress
  · split
    · exact readMember_moved convention line following progress
    · rfl

theorem read_moved (lines : List Line) :
    read convention progress.unplaced (lines.map (Line.moved 0)) =
      (read convention progress lines).unplaced := by
  induction lines generalizing progress with
  | nil => rfl
  | cons line following ih => rw [List.map_cons, read, readLine_moved, ih, read]

theorem types_moved (stem : String) (lines : List Line) :
    types convention stem (lines.map (Line.moved 0)) =
      ((types convention stem lines).1, (types convention stem lines).2.unplaced) := by
  have hread := read_moved convention { type := { name := Naming.typeName stem } } lines
  change read convention { type := { name := Naming.typeName stem } } _ = _ at hread
  rw [types, hread]
  rfl

end SingleType

/-! ### Lines that are read -/

/-- The line that a source is read as, unless it is passed over. The number is left out. -/
def Line.significant? (source : String) : Option Line :=
  if isSkipped (Text.trim source) then none else some ((ofSource 0 source).moved 0)

theorem Line.map_significant (first : Int) (sources : List String) :
    (significant first sources).map (moved 0) = sources.filterMap significant? := by
  induction sources generalizing first with
  | nil => rfl
  | cons source sources ih =>
    have hrest := ih (first + 1)
    rw [significant] at hrest ⊢
    rw [numbered, List.filter_cons, List.filterMap_cons, significant?]
    cases hskipped : isSkipped (Text.trim source) with
    | true => simp [ofSource, hskipped, hrest]
    | false => simp [ofSource, hskipped, hrest, moved]

theorem Line.significant?_append_blanks {blanks : String} (hblanks : AllBlank blanks)
    (source : String) : significant? (source ++ blanks) = significant? source := by
  rw [significant?, significant?, Text.trim_append_blanks hblanks]
  split
  case isTrue => rfl
  case isFalse hskipped =>
    have hne : Text.trim source ≠ "" := by
      intro hempty
      rw [hempty] at hskipped
      exact hskipped rfl
    rw [ofSource, ofSource, Text.trim_append_blanks hblanks, Text.indentation_append hne]

/-! ### Reformatted sources -/

/-- Sources with other blank lines and comments, and with further blanks at the ends of lines. -/
inductive Reformatted : List String → List String → Prop where
  | nil : Reformatted [] []
  | keep (line : String) {blanks : String} (hblanks : AllBlank blanks)
      {sources others : List String} :
      Reformatted sources others → Reformatted (line :: sources) ((line ++ blanks) :: others)
  | insert {line : String} (hskipped : Line.isSkipped (Text.trim line) = true)
      {sources others : List String} :
      Reformatted sources others → Reformatted sources (line :: others)
  | remove {line : String} (hskipped : Line.isSkipped (Text.trim line) = true)
      {sources others : List String} :
      Reformatted sources others → Reformatted (line :: sources) others

theorem Reformatted.keep_same (line : String) {sources others : List String}
    (h : Reformatted sources others) : Reformatted (line :: sources) (line :: others) := by
  have hblanks : AllBlank "" := by simp [AllBlank]
  have hkeep := h.keep line hblanks
  rwa [String.append_empty] at hkeep

/-- All blank lines and comments may be left out at once. -/
theorem reformatted_filter (sources : List String) :
    Reformatted sources (sources.filter fun line => !Line.isSkipped (Text.trim line)) := by
  induction sources with
  | nil => exact .nil
  | cons line sources ih =>
    rw [List.filter_cons]
    split
    case isTrue => exact ih.keep_same line
    case isFalse hskipped => exact ih.remove (by simpa using hskipped)

theorem Reformatted.filterMap_eq {sources others : List String} (h : Reformatted sources others) :
    others.filterMap Line.significant? = sources.filterMap Line.significant? := by
  induction h with
  | nil => rfl
  | keep line hblanks _ ih =>
    rw [List.filterMap_cons, List.filterMap_cons, Line.significant?_append_blanks hblanks, ih]
  | insert hskipped _ ih => rw [List.filterMap_cons, Line.significant?, if_pos hskipped, ih]
  | remove hskipped _ ih => rw [List.filterMap_cons, Line.significant?, if_pos hskipped, ih]

namespace Source

/-- What a file declares depends on the lines that are read, without their numbers. -/
theorem typesOf_moved (convention : Convention) (format : SourceFormat) (stem : String)
    (sources : List String) :
    (match format with
      | .library => Library.types convention (sources.filterMap Line.significant?)
      | .dataType => SingleType.types convention stem (sources.filterMap Line.significant?)) =
      ((typesOf convention format stem sources).1,
        (typesOf convention format stem sources).2.unplaced) := by
  rw [← Line.map_significant 1]
  cases format with
  | library => exact Library.types_moved convention _
  | dataType => exact SingleType.types_moved convention stem _

/-- **Blank lines, comments and trailing blanks are invisible.** In both formats they change neither
the types nor anything in the findings but the numbers of lines. -/
theorem typesOf_reformatted {sources others : List String} (h : Reformatted sources others)
    (convention : Convention) (format : SourceFormat) (stem : String) :
    (typesOf convention format stem others).1 = (typesOf convention format stem sources).1 ∧
      (typesOf convention format stem others).2.unplaced =
        (typesOf convention format stem sources).2.unplaced := by
  have hothers := typesOf_moved convention format stem others
  rw [h.filterMap_eq, typesOf_moved] at hothers
  obtain ⟨htypes, hfindings⟩ := Prod.mk.inj hothers
  exact ⟨htypes.symm, hfindings.symm⟩

/-- A library with comments and blank lines in the middle of a type, one of them in an enum. -/
def commentedSources : List String :=
  ["types:", "  Paint:", "", "    properties:", "# shades", "      shade:  ", "        enum:",
    "   ", "          - Dark", "  # none", "        description: of paint"]

theorem typesOf_reformatted_commented :
    Reformatted commentedSources
        (commentedSources.filter fun line => !Line.isSkipped (Text.trim line)) ∧
      (commentedSources.filter fun line => !Line.isSkipped (Text.trim line)).length = 7 ∧
      (typesOf .pascal .library "" (commentedSources.filter fun line =>
        !Line.isSkipped (Text.trim line))).1.map (fun type => (type.name, type.values)) =
          [("Paint", []), ("PaintShade", ["Dark"])] ∧
      (typesOf .pascal .library "" (commentedSources.filter fun line =>
        !Line.isSkipped (Text.trim line))).1 =
          (typesOf .pascal .library "" commentedSources).1 :=
  ⟨reformatted_filter _, by decide, by decide,
    (typesOf_reformatted (reformatted_filter _) .pascal .library "").1⟩

end Source

end RamlSchema.Raml
