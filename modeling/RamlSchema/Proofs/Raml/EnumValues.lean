import Mathlib.Data.List.TakeWhile
import RamlSchema.Raml.PropertyBlock

/-!
# The values of inline enums

Once an `enum:` has been read, every entry four steps in is a value of the enum, also where another
facet stands in between. What a block has read therefore depends on the lines before only through
whether one of them says `enum:`, and the values of the whole block are the entries behind the first
line that does.
-/

namespace RamlSchema.Raml

theorem Facet.ofText?_eq_enum_iff {text : String} :
    Facet.ofText? text = some .enum ↔ text = "enum:" := by
  unfold Facet.ofText?
  by_cases htext : text = "enum:"
  · simp [htext]
  · rw [if_neg htext]
    refine iff_of_false ?_ htext
    cases Line.facet? "description:" text <;> cases Line.facet? "type:" text <;>
      cases Line.facet? "items:" text <;> simp

namespace PropertyBlock

/-- A line two steps in that says `enum:`. -/
def opensEnum (base : Int) (line : Line) : Bool := line.indent == base + 2 && line.text == "enum:"

/-- The value of an entry four steps in. -/
def value? (base : Int) (line : Line) : Option String :=
  if line.indent = base + 4 then Line.entry? line.text else none

/-- The values of the entries behind the first `enum:`. -/
def enumValues (base : Int) (block : List Line) : List String :=
  (block.dropWhile fun line => !opensEnum base line).filterMap (value? base)

/-- The block of the property whose lines begin at an index. -/
def blockAt (sources : List String) (start : Nat) (base : Int) : List Line :=
  lines base (Line.significant (start + 1) (sources.drop start))

variable {base : Int} {context : PropertyContext} {line : Line} {following block : List Line}
  {progress : Progress}

theorem opensEnum_iff :
    opensEnum base line = true ↔ line.indent = base + 2 ∧ line.text = "enum:" := by
  rw [opensEnum, Bool.and_eq_true, beq_iff_eq, beq_iff_eq]

theorem value?_eq_some_iff {value : String} :
    value? base line = some value ↔
      line.indent = base + 4 ∧ Line.entry? line.text = some value := by
  rw [value?]
  by_cases hindent : line.indent = base + 4
  · rw [if_pos hindent]
    exact (and_iff_right hindent).symm
  · rw [if_neg hindent]
    exact iff_of_false nofun fun h => hindent h.1

theorem value?_of_opensEnum (hopens : opensEnum base line = true) : value? base line = none := by
  have hindent := (opensEnum_iff.mp hopens).1
  rw [value?, if_neg (by omega)]

/-! ### Reading -/

theorem readFacet_enum (facet : Facet) :
    (readFacet base context line following progress facet).values = progress.values ∧
      (readFacet base context line following progress facet).enumLine.isSome =
        (decide (facet = .enum) || progress.enumLine.isSome) := by
  cases facet with
  | type token =>
    rw [readFacet, readUnion, readSingle]
    dsimp only
    split
    · exact ⟨rfl, rfl⟩
    · split <;> exact ⟨rfl, rfl⟩
  | description | enum | items => exact ⟨rfl, rfl⟩

theorem readLine_enum (base : Int) (context : PropertyContext) (line : Line)
    (following : List Line) (progress : Progress) :
    (readLine base context line following progress).values =
        progress.values ++ (if progress.enumLine.isSome then value? base line else none).toList ∧
      (readLine base context line following progress).enumLine.isSome =
        (opensEnum base line || progress.enumLine.isSome) := by
  rw [readLine]
  by_cases htwo : line.indent = base + 2
  · have hvalue : value? base line = none := by rw [value?, if_neg (by omega)]
    have hopens : opensEnum base line = decide (Facet.ofText? line.text = some .enum) := by
      rw [Bool.eq_iff_iff, opensEnum_iff, decide_eq_true_eq, Facet.ofText?_eq_enum_iff,
        and_iff_right htwo]
    rw [if_pos htwo, hvalue, ite_self, Option.toList_none, List.append_nil, hopens]
    cases Facet.ofText? line.text with
    | none => exact ⟨rfl, rfl⟩
    | some facet => simpa using readFacet_enum facet
  · have hopens : opensEnum base line = false :=
      Bool.eq_false_iff.mpr fun hopens => htwo (opensEnum_iff.mp hopens).1
    rw [if_neg htwo, hopens, Bool.false_or, value?]
    by_cases hfour : line.indent = base + 4
    · cases hseen : progress.enumLine.isSome with
      | false => simp [hseen]
      | true => cases Line.entry? line.text <;> simp [hfour, hseen]
    · simp [hfour]

theorem values_read (base : Int) (context : PropertyContext) (progress : Progress)
    (block : List Line) :
    (read base context progress block).values =
      progress.values ++
        if progress.enumLine.isSome then block.filterMap (value? base)
        else enumValues base block := by
  induction block generalizing progress with
  | nil => simp [read, enumValues]
  | cons line following ih =>
    obtain ⟨hvalues, hseen⟩ := readLine_enum base context line following progress
    rw [read, ih, hvalues, hseen]
    -- before the first `enum:` nothing is added, and behind it every entry
    cases progress.enumLine.isSome with
    | true => cases hvalue : value? base line <;> simp [hvalue]
    | false =>
      cases hopens : opensEnum base line with
      | true => simp [enumValues, hopens, value?_of_opensEnum hopens]
      | false => simp [enumValues, hopens]

theorem isSome_enumLine_read (base : Int) (context : PropertyContext) (progress : Progress)
    (block : List Line) :
    (read base context progress block).enumLine.isSome =
      (progress.enumLine.isSome || block.any (opensEnum base)) := by
  induction block generalizing progress with
  | nil => simp [read]
  | cons line following ih =>
    rw [read, ih, (readLine_enum base context line following progress).2, List.any_cons,
      Bool.or_comm (opensEnum base line), Bool.or_assoc]

/-- A value comes from an entry with an `enum:` before it, whatever stands between the two. -/
theorem mem_enumValues_iff {value : String} :
    value ∈ enumValues base block ↔
      ∃ before line after, block = before ++ line :: after ∧ line.indent = base + 4 ∧
        Line.entry? line.text = some value ∧
        ∃ opener ∈ before, opener.indent = base + 2 ∧ opener.text = "enum:" := by
  rw [enumValues, List.mem_filterMap]
  constructor
  · rintro ⟨line, hline, hvalue⟩
    obtain ⟨hindent, hentry⟩ := value?_eq_some_iff.mp hvalue
    have hfirst := List.head?_dropWhile_not (fun line => !opensEnum base line) block
    have hblock :=
      List.takeWhile_append_dropWhile (l := block) (p := fun line => !opensEnum base line)
    generalize block.takeWhile (fun line => !opensEnum base line) = front at hblock
    cases hdrop : block.dropWhile fun line => !opensEnum base line with
    | nil =>
      rw [hdrop] at hline
      cases hline
    | cons opener rest =>
      rw [hdrop] at hline hfirst hblock
      have hopens : opensEnum base opener = true := by simpa using hfirst
      rcases List.mem_cons.mp hline with rfl | hline
      · rw [value?_of_opensEnum hopens] at hvalue
        cases hvalue
      · obtain ⟨between, after, rfl⟩ := List.append_of_mem hline
        refine ⟨front ++ opener :: between, line, after, ?_, hindent, hentry, opener, ?_,
          opensEnum_iff.mp hopens⟩
        · rw [← hblock, List.append_assoc, List.cons_append]
        · exact List.mem_append_right _ List.mem_cons_self
  · rintro ⟨before, line, after, rfl, hindent, hentry, opener, hopener, hopens⟩
    refine ⟨line, ?_, value?_eq_some_iff.mpr ⟨hindent, hentry⟩⟩
    have hfound : before.dropWhile (fun line => !opensEnum base line) ≠ [] := by
      rw [Ne, List.dropWhile_eq_nil_iff]
      intro hnone
      have hnot := hnone opener hopener
      rw [opensEnum_iff.mpr hopens] at hnot
      cases hnot
    rw [List.dropWhile_append, if_neg (by simpa using hfound)]
    exact List.mem_append_right _ List.mem_cons_self

/-- Lines that are neither an `enum:` nor an entry have no part in the values. -/
theorem enumValues_append_cons (hopens : opensEnum base line = false)
    (hvalue : value? base line = none) (before after : List Line) :
    enumValues base (before ++ line :: after) = enumValues base (before ++ after) := by
  rw [enumValues, enumValues, List.dropWhile_append, List.dropWhile_append]
  split
  · rw [List.dropWhile_cons_of_pos (by rw [hopens]; rfl)]
  · rw [List.filterMap_append, List.filterMap_append, List.filterMap_cons_none hvalue]

theorem enumValues_eq_nil_of_enumLine (context : PropertyContext)
    (hnone : (read base context {} block).enumLine = none) : enumValues base block = [] := by
  have hseen := isSome_enumLine_read base context {} block
  rw [hnone, Option.isSome_none, Bool.false_or, Eq.comm, List.any_eq_false] at hseen
  have hdrop : block.dropWhile (fun line => !opensEnum base line) = [] := by
    rw [List.dropWhile_eq_nil_iff]
    intro line hline
    simpa using hseen line hline
  rw [enumValues, hdrop, List.filterMap_nil]

theorem values_read_empty (base : Int) (context : PropertyContext) (block : List Line) :
    (read base context {} block).values = enumValues base block := by
  rw [values_read, Option.isSome_none, if_neg Bool.false_ne_true, List.nil_append]

theorem liftedEnum_resolve (base : Int) (context : PropertyContext) (number : Int)
    (declared : Option String) (following : List Line) :
    (resolve base context number declared following).liftedEnum =
      if (enumValues base (lines base following)).isEmpty then none
      else some (liftedEnumOf context (enumValues base (lines base following))) := by
  rw [resolve, values_read_empty]
  split
  case h_1 => split <;> rfl
  case h_2 hnone =>
    rw [enumValues_eq_nil_of_enumLine context hnone]
    rfl

/-- **The values of a lifted enum are the entries behind an `enum:`.** They are the entries four
steps in that have an `enum:` two steps in before them in the block of the property, in their order,
also where another facet follows the `enum:`. Without such an entry nothing is lifted. -/
theorem lifted_values_follow_enum (sources : List String) (start : Nat) (base : Int)
    (context : PropertyContext) :
    ∃ resolution, resolveAt? sources start base context = some resolution ∧
      (resolution.liftedEnum =
        if (enumValues base (blockAt sources start base)).isEmpty then none
        else some (liftedEnumOf context (enumValues base (blockAt sources start base)))) ∧
      ∀ value, value ∈ enumValues base (blockAt sources start base) ↔
        ∃ before line after, blockAt sources start base = before ++ line :: after ∧
          line.indent = base + 4 ∧ Line.entry? line.text = some value ∧
          ∃ opener ∈ before, opener.indent = base + 2 ∧ opener.text = "enum:" := by
  refine ⟨resolve base context start (declaredBefore? sources start)
    (Line.significant (start + 1) (sources.drop start)), rfl, ?_, ?_⟩
  · exact liftedEnum_resolve base context start _ _
  · intro value
    exact mem_enumValues_iff

/-! ### Entries under other facets -/

/-- The nearest line two steps in before a line. -/
def facetAbove? (base : Int) (before : List Line) : Option Line :=
  before.reverse.find? fun line => line.indent = base + 2

def otherFacetLines : List String :=
  ["  shade:", "    enum:", "      - A", "    examples:", "      - B"]

/-- The entry of another facet becomes a value, too. -/
theorem value_under_another_facet :
    ∃ resolution enum,
      resolveAt? otherFacetLines 1 2 ⟨"Paint", "shade", .pascal, false⟩ = some resolution ∧
        resolution.liftedEnum = some enum ∧ enum.values = ["A", "B"] ∧
        ¬∃ before line after, blockAt otherFacetLines 1 2 = before ++ line :: after ∧
          line.indent = (2 : Int) + 4 ∧ Line.entry? line.text = some "B" ∧
          ∃ opener, facetAbove? 2 before = some opener ∧ opener.text = "enum:" := by
  refine ⟨_, _, rfl, rfl, by decide +kernel, ?_⟩
  have hblock : blockAt otherFacetLines 1 2 =
      [⟨2, 4, "enum:"⟩, ⟨3, 6, "- A"⟩, ⟨4, 4, "examples:"⟩, ⟨5, 6, "- B"⟩] := by
    decide +kernel
  rw [hblock]
  rintro ⟨before, line, after, hsplit, -, hentry, opener, habove, hopens⟩
  match before with
  | [] =>
    obtain ⟨rfl, -⟩ := List.cons.inj hsplit
    exact absurd hentry (by decide +kernel)
  | [_] =>
    obtain ⟨-, rfl, -⟩ := by simpa using hsplit
    exact absurd hentry (by decide +kernel)
  | [_, _] =>
    obtain ⟨-, -, rfl, -⟩ := by simpa using hsplit
    exact absurd hentry (by decide +kernel)
  | [_, _, _] =>
    obtain ⟨rfl, rfl, rfl, -⟩ := by simpa using hsplit
    obtain rfl := Option.some_inj.mp habove
    exact absurd hopens (by decide)
  | _ :: _ :: _ :: _ :: _ => simp at hsplit

end PropertyBlock

end RamlSchema.Raml
