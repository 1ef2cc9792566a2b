import RamlSchema.Proofs.Raml.Composition
import RamlSchema.Proofs.Raml.Layout

/-!
# One type in both formats

A file of a single type declares what a library declares in which the same lines stand four steps
deeper, under the name of the type. The two readers keep different notes on where they are: one
remembers the section that it is in, the other whether the type is an enum. Behind the line that
opens the only section both say the same, and that carries the proof over any body.
-/

namespace RamlSchema.Raml

open Text (IsUnbroken)

/-! ### Reading side by side -/

namespace SingleType

/-- Both readers have read the same, and the section is the one that the type's kind calls for. -/
structure Progress.Matches (progress : Progress) (block : Block) : Prop where
  type_eq : block.type = progress.type
  lifted_eq : block.lifted = progress.lifted
  inside_eq : progress.inside = if progress.type.isEnum then .enum else .properties

variable {convention : Convention} {progress : Progress} {block : Block}

theorem Progress.Matches.readMember (hmatches : progress.Matches block) (line : Line)
    (following : List Line) :
    (readMember convention line following progress).Matches
      (Library.readBlockMember convention (line.moved 4) (following.map (Line.moved 4)) block) := by
  obtain ⟨htype, hlifted, hinside⟩ := hmatches
  rw [SingleType.readMember, Library.readBlockMember, htype, Line.moved_text]
  cases hkind : progress.type.isEnum with
  | true =>
    have henum : progress.inside = .enum := by rw [hinside, hkind, if_pos rfl]
    rw [henum, if_pos rfl]
    refine ⟨by rw [Block.addEntry, htype], hlifted, ?_⟩
    rw [Declaration.addEntry_eq]
    simp [hkind]
  | false =>
    have hproperties : progress.inside = .properties := by
      rw [hinside, hkind, if_neg Bool.false_ne_true]
    rw [hproperties, if_neg Bool.false_ne_true]
    cases Line.heading? line.text with
    | none => exact ⟨htype, hlifted, hinside⟩
    | some heading =>
      have hresolve := resolveHeading_moved convention progress.type.name heading 4 line following
      refine ⟨?_, ?_, ?_⟩
      · simp only [Block.addProperty, htype, hresolve]
        rfl
      · simp only [Block.addProperty, htype, hlifted, hresolve]
        rfl
      · simp [Declaration.addResolution, Declaration.addProperty, hkind]

theorem Progress.Matches.readLine (hmatches : progress.Matches block) {line : Line}
    (hindent : 2 ≤ line.indent) (following : List Line) :
    (readLine convention line following progress).Matches
      (Library.readBlockLine convention (line.moved 4) (following.map (Line.moved 4)) block) := by
  have hmargin : ¬line.indent = 0 := by omega
  have hfacet : ¬line.indent + 4 = 4 := by omega
  have hmember : line.indent + 4 = 6 ↔ line.indent = 2 := by omega
  simp only [SingleType.readLine, Library.readBlockLine, Line.moved_indent, hmargin, hfacet,
    hmember, if_false]
  split
  · exact hmatches.readMember line following
  · exact hmatches

theorem Progress.Matches.read (hmatches : progress.Matches block) {lines : List Line}
    (hindent : ∀ line ∈ lines, 2 ≤ line.indent) :
    (read convention progress lines).Matches
      (Library.readBlock convention block (lines.map (Line.moved 4))) := by
  induction lines generalizing progress block with
  | nil => exact hmatches
  | cons line lines ih =>
    have hline : 2 ≤ line.indent := hindent line List.mem_cons_self
    rw [List.map_cons, Library.readBlock_cons_of_deep (by rw [Line.moved_indent]; omega),
      SingleType.read]
    exact ih (hmatches.readLine hline lines) fun l hl => hindent l (List.mem_cons_of_mem line hl)

end SingleType

/-! ### Sources -/

theorem Line.significant?_blanks_append {blanks : String} (hblanks : Text.AllBlank blanks)
    (source : String) :
    significant? (blanks ++ source) = (significant? source).map (moved blanks.toList.length) := by
  rw [significant?, significant?, Text.trim_blanks_append hblanks]
  split
  · rfl
  · rw [ofSource, Text.trim_blanks_append hblanks, Text.indentation_blanks_append hblanks,
      Nat.add_comm]
    rfl

def singleTypes (convention : Convention) (stem : String) (sources : List String) :
    List Declaration :=
  (SingleType.types convention stem (Line.significant 1 sources)).1

theorem singleTypes_eq (convention : Convention) (stem : String) (sources : List String) :
    singleTypes convention stem sources =
      (SingleType.types convention stem (sources.filterMap Line.significant?)).1 := by
  rw [← Line.map_significant 1, SingleType.types_moved, singleTypes]

/-- A library of one type, with the lines of its block. -/
theorem Library.types_singleton (convention : Convention) {name : String} {head : Line}
    (hhead : typeName? head = some name) {lines : List Line}
    (hdeep : ∀ line ∈ lines, 2 < line.indent) :
    (types convention (⟨0, 0, "types:"⟩ :: head :: lines)).1 =
      (readBlock convention { type := { name } } lines).type ::
        (readBlock convention { type := { name } } lines).lifted := by
  have hmargin : ¬head.indent = 0 := by
    intro hzero
    rw [typeName?, if_neg (by omega)] at hhead
    cases hhead
  have hnone : openings true lines = [] := by
    have hdeeper := openings_append_of_deep hdeep []
    rwa [List.append_nil] at hdeeper
  have hblocks : blocks convention (⟨0, 0, "types:"⟩ :: head :: lines) =
      [readBlock convention { type := { name } } lines] := by
    rw [blocks, openings, if_pos rfl, decide_eq_true rfl, openings, if_neg hmargin, if_pos rfl,
      hhead, hnone]
    rfl
  rw [types_eq_blocks, hblocks]
  simp

/-- Both readers start alike behind the line that opens the section. -/
theorem matches_section (name : String) {facet : String}
    (hfacet : facet = "properties:" ∨ facet = "enum:") :
    (SingleType.readFacet ⟨0, 0, facet⟩ { type := { name } }).Matches
      { type := Library.readFacet ⟨0, 4, facet⟩ { name } } := by
  rcases hfacet with rfl | rfl <;> exact ⟨rfl, rfl, rfl⟩

/-- A library in which the lines of a file stand under the name of its type. -/
def nestedSources (name : String) (sources : List String) : List String :=
  "types:" :: ("  " ++ name ++ ":") :: sources.map ("    " ++ ·)

theorem filterMap_nestedSources (name : Phrase) (hhead : name.text.toList.head? ≠ some '#')
    (sources : List String) :
    (nestedSources name.text sources).filterMap Line.significant? =
      ⟨0, 0, "types:"⟩ :: ⟨0, 2, name.text ++ ":"⟩ ::
        (sources.filterMap Line.significant?).map (Line.moved 4) := by
  have hplain : IsPlain (name.text ++ ":") := .heading name hhead
  have hname : Line.significant? ("  " ++ name.text ++ ":") = some ⟨0, 2, name.text ++ ":"⟩ := by
    have hrow : IsPlain (⟨2, name.text ++ ":"⟩ : Row).text := hplain
    have hline := Row.ofSource_source hrow 0
    have htrim : Text.trim ("  " ++ name.text ++ ":") = name.text ++ ":" := by
      rw [String.append_assoc]
      exact congrArg Line.text hline
    rw [Line.significant?, htrim, hplain.isSkipped_eq, if_neg Bool.false_ne_true,
      String.append_assoc]
    exact congrArg (fun line => some (line.moved 0)) hline
  have hmoved : ∀ source, Line.significant? ("    " ++ source) =
      (Line.significant? source).map (Line.moved 4) :=
    Line.significant?_blanks_append (Text.allBlank_spaces 4)
  rw [nestedSources, List.filterMap_cons, List.filterMap_cons, hname, List.filterMap_map,
    List.map_filterMap]
  simp only [Function.comp_def, hmoved]
  rfl

/-- **The two formats agree.** Where one facet opens the members of a type, and nothing behind it
stands at the margin, a file of a single type declares what the library does in which its lines are
nested. -/
theorem singleTypes_eq_libraryTypes (convention : Convention) {stem : String}
    (htrim : Text.trim (Naming.typeName stem) = Naming.typeName stem)
    (hunbroken : IsUnbroken (Naming.typeName stem))
    (hcomment : Text.startsWith (Naming.typeName stem) "#" = false)
    {facet : String} (hfacet : facet = "properties:" ∨ facet = "enum:") {body : List String}
    (hbody : ∀ line ∈ Line.significant 1 body, 2 ≤ line.indent) :
    singleTypes convention stem (facet :: body) =
      libraryTypes convention (nestedSources (Naming.typeName stem) (facet :: body)) := by
  let name : Phrase := ⟨Naming.typeName stem, htrim, hunbroken⟩
  have hhead : name.text.toList.head? ≠ some '#' := by
    intro hhash
    obtain ⟨cs, hcs⟩ := List.head?_eq_some_iff.mp hhash
    rw [Text.startsWith, hcs] at hcomment
    cases hcomment
  set lines := body.filterMap Line.significant? with hlines
  have hdeep : ∀ line ∈ lines, 2 ≤ line.indent := by
    rw [hlines, ← Line.map_significant 1, List.forall_mem_map]
    exact hbody
  have hsection : (facet :: body).filterMap Line.significant? = ⟨0, 0, facet⟩ :: lines := by
    rcases hfacet with rfl | rfl <;> rfl
  rw [singleTypes_eq, libraryTypes_eq, filterMap_nestedSources name hhead, hsection,
    List.map_cons, Library.types_singleton convention (Library.typeName?_heading name 0)]
  · rw [Library.readBlock_facet (by rfl)]
    have hread : (SingleType.read convention _ lines).Matches (Library.readBlock convention _ _) :=
      (matches_section name.text hfacet).read hdeep
    exact (congrArg₂ List.cons hread.type_eq hread.lifted_eq).symm
  · intro line hline
    rcases List.mem_cons.mp hline with rfl | hline
    · simp
    · obtain ⟨inner, hinner, rfl⟩ := List.mem_map.mp hline
      have := hdeep inner hinner
      rw [Line.moved_indent]
      omega

/-- Members with an enum in one of them, and lines at depths that have no meaning. -/
def unevenBody : List String :=
  ["  shade:", "    enum:", "      - Dark", "   - Pale", "", "  - Light", "  size?:", "# in litres",
    "     type: number", "    type: integer"]

theorem singleTypes_eq_libraryTypes_uneven :
    Naming.typeName "paint_bucket" = "PaintBucket" ∧
      (∀ line ∈ Line.significant 1 unevenBody, 2 ≤ line.indent) ∧
      (singleTypes .pascal "paint_bucket" ("properties:" :: unevenBody)).map
          (fun type => (type.name, type.properties.keys, type.required, type.values)) =
        [("PaintBucket", ["shade", "size"], ["shade"], []),
          ("PaintBucketShade", [], [], ["Dark"])] ∧
      singleTypes .pascal "paint_bucket" ("properties:" :: unevenBody) =
        libraryTypes .pascal (nestedSources "PaintBucket" ("properties:" :: unevenBody)) := by
  have hname : Naming.typeName "paint_bucket" = "PaintBucket" := by decide +kernel
  have hbody : ∀ line ∈ Line.significant 1 unevenBody, 2 ≤ line.indent := by decide
  refine ⟨hname, hbody, by decide +kernel, ?_⟩
  have htrim : Text.trim (Naming.typeName "paint_bucket") = Naming.typeName "paint_bucket" := by
    decide +kernel
  have hsame := singleTypes_eq_libraryTypes .pascal htrim (by decide +kernel) (by decide +kernel)
    (.inl rfl) hbody
  rwa [hname] at hsame

end RamlSchema.Raml
