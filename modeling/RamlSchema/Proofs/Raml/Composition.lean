import RamlSchema.Proofs.Raml.Facets
import RamlSchema.Proofs.Raml.Reformatting
import RamlSchema.Proofs.Raml.Sections

/-!
# Libraries one behind the other

A library whose types are written in two parts declares what the parts declare. Reading looks ahead
from the heading of a property, but only over deeper lines, and the line that names the next type is
not one of them. So a type takes nothing from the lines behind its block, whatever stands there.
-/

namespace RamlSchema.Raml

/-! ### Lines behind a block -/

theorem PropertyBlock.resolve_append_of_shallow {base : Int} {after : List Line}
    (hhead : ∀ head ∈ after.head?, (head.indent : Int) ≤ base) (context : PropertyContext)
    (line : Int) (declared : Option String) (following : List Line) :
    resolve base context line declared (following ++ after) =
      resolve base context line declared following := by
  unfold resolve
  rw [lines_append_of_shallow hhead]

namespace Library

theorem indent_le_of_closes {line : Line} (hcloses : closes line = true) : line.indent ≤ 2 := by
  rw [closes] at hcloses
  split at hcloses
  case isTrue hmargin => omega
  case isFalse =>
    rw [typeName?] at hcloses
    split at hcloses
    case isTrue hindent => omega
    case isFalse => cases hcloses

variable {convention : Convention} {after : List Line}

theorem readBlockLine_append (hafter : ∀ head ∈ after.head?, closes head = true) (line : Line)
    (following : List Line) (block : Block) :
    readBlockLine convention line (following ++ after) block =
      readBlockLine convention line following block := by
  rw [readBlockLine, readBlockLine]
  split
  · rfl
  · split
    case isTrue hindent =>
      have hhead : ∀ head ∈ after.head?, (head.indent : Int) ≤ line.indent := by
        intro head hmem
        have := indent_le_of_closes (hafter head hmem)
        omega
      rw [readBlockMember, readBlockMember]
      split
      · rfl
      · cases Line.heading? line.text with
        | none => rfl
        | some heading =>
          simp only [Block.addProperty, resolveHeading,
            PropertyBlock.resolve_append_of_shallow hhead]
    case isFalse => rfl

theorem readBlock_append (hafter : ∀ head ∈ after.head?, closes head = true) (block : Block)
    (following : List Line) :
    readBlock convention block (following ++ after) = readBlock convention block following := by
  induction following generalizing block with
  | nil =>
    cases after with
    | nil => rfl
    | cons head after => rw [List.nil_append, readBlock, readBlock, if_pos (hafter head rfl)]
  | cons line following ih =>
    rw [List.cons_append, readBlock, readBlock]
    split
    · rfl
    · rw [readBlockLine_append hafter, ih]

theorem openings_append {before : List Line} (hbefore : ∀ line ∈ before, line.indent ≠ 0)
    (after : List Line) :
    openings true (before ++ after) =
      (openings true before).map (fun (name, following) => (name, following ++ after)) ++
        openings true after := by
  induction before with
  | nil => rfl
  | cons line before ih =>
    have hline := hbefore line List.mem_cons_self
    have hrest := ih fun l hl => hbefore l (List.mem_cons_of_mem line hl)
    rw [List.cons_append, openings, openings, if_neg hline, if_neg hline, if_pos rfl, hrest]
    cases typeName? line <;> simp

/-- The blocks of two parts are the blocks of both. -/
theorem blocks_append (convention : Convention) (opening : Line) (hmargin : opening.indent = 0)
    (htypes : opening.text = "types:") {before : List Line}
    (hbefore : ∀ line ∈ before, line.indent ≠ 0)
    (hafter : ∀ head ∈ after.head?, closes head = true) :
    blocks convention (opening :: (before ++ after)) =
      blocks convention (opening :: before) ++ blocks convention (opening :: after) := by
  have hopen : ∀ lines, openings false (opening :: lines) = openings true lines := by
    intro lines
    rw [openings, if_pos hmargin, decide_eq_true htypes]
  rw [blocks, blocks, blocks, hopen, hopen, hopen, openings_append hbefore, List.map_append,
    List.map_map]
  congr 1
  refine List.map_congr_left ?_
  rintro ⟨name, following⟩ -
  exact readBlock_append hafter _ following

end Library

/-! ### Declared and lifted types -/

def declaredTypes (types : List Declaration) : List Declaration :=
  types.filter fun type => type.origin.isNone

def liftedTypes (types : List Declaration) : List Declaration :=
  types.filter fun type => type.origin.isSome

theorem declaredTypes_blocks {convention : Convention} {lines : List Line} :
    declaredTypes (Library.types convention lines).1 =
        (Library.blocks convention lines).map (·.type) ∧
      liftedTypes (Library.types convention lines).1 =
        (Library.blocks convention lines).flatMap (·.lifted) := by
  have hdeclared : ∀ type ∈ (Library.blocks convention lines).map (·.type),
      type.origin = none := by
    intro type htype
    obtain ⟨block, hblock, rfl⟩ := List.mem_map.mp htype
    exact (Source.isDeclared_of_mem_blocks hblock).1.1
  have hlifted : ∀ type ∈ (Library.blocks convention lines).flatMap (·.lifted),
      type.origin.isSome := by
    intro type htype
    obtain ⟨block, hblock, hmem⟩ := List.mem_flatMap.mp htype
    exact ((Source.isDeclared_of_mem_blocks hblock).2 type hmem).1
  rw [declaredTypes, liftedTypes, Library.types_eq_blocks, List.filter_append, List.filter_append]
  constructor
  · rw [List.filter_eq_self.mpr fun type htype => by simp [hdeclared type htype],
      List.filter_eq_nil_iff.mpr fun type htype => by
        simpa [← Option.isSome_iff_ne_none] using hlifted type htype,
      List.append_nil]
  · rw [List.filter_eq_nil_iff.mpr fun type htype => by simp [hdeclared type htype],
      List.filter_eq_self.mpr hlifted, List.nil_append]

/-! ### Sources -/

def libraryTypes (convention : Convention) (sources : List String) : List Declaration :=
  (Library.types convention (Line.significant 1 sources)).1

theorem libraryTypes_eq (convention : Convention) (sources : List String) :
    libraryTypes convention sources =
      (Library.types convention (sources.filterMap Line.significant?)).1 := by
  rw [← Line.map_significant 1, Library.types_moved, libraryTypes]

/-- **Libraries are compositional.** Where no line of `before` ends the list of types, and the first
line of `after` begins a type, the types of both are those of the parts. -/
theorem libraryTypes_append (convention : Convention) {before after : List String}
    (hbefore : ∀ line ∈ Line.significant 1 before, line.indent ≠ 0)
    {head : Line} (hhead : (Line.significant 1 after).head? = some head) (hindent : head.indent = 2)
    (hcolon : Text.endsWith head.text ":") :
    libraryTypes convention ("types:" :: before ++ after) =
      declaredTypes (libraryTypes convention ("types:" :: before)) ++
        declaredTypes (libraryTypes convention ("types:" :: after)) ++
        liftedTypes (libraryTypes convention ("types:" :: before)) ++
        liftedTypes (libraryTypes convention ("types:" :: after)) := by
  have hbefore' : ∀ line ∈ before.filterMap Line.significant?, line.indent ≠ 0 := by
    rw [← Line.map_significant 1, List.forall_mem_map]
    exact hbefore
  have hcloses : ∀ line ∈ (after.filterMap Line.significant?).head?,
      Library.closes line = true := by
    rw [← Line.map_significant 1, List.head?_map, hhead]
    intro line hline
    obtain rfl : head.moved 0 = line := Option.some_inj.mp hline
    cases hname : Text.dropSuffix? head.text ":" with
    | none =>
      rw [Text.dropSuffix?_eq_none_iff.mp hname] at hcolon
      cases hcolon
    | some name =>
      simp [Library.closes, Library.typeName?, hindent, Line.heading?, hname]
  have hopening : ∀ sources, ("types:" :: sources).filterMap Line.significant? =
      ⟨0, 0, "types:"⟩ :: sources.filterMap Line.significant? := fun _ => rfl
  have hblocks := Library.blocks_append convention ⟨0, 0, "types:"⟩ rfl rfl hbefore'
    hcloses
  simp only [List.cons_append, libraryTypes_eq, declaredTypes_blocks.1, declaredTypes_blocks.2]
  rw [Library.types_eq_blocks, hopening, hopening, hopening, List.filterMap_append, hblocks]
  simp

/-- The lines of a type that is cut off within an enum, with a comment. -/
def cutOffSources : List String :=
  ["  Paint:", "    properties:", "      shade:", "        enum:", "# the rest is missing",
    "          - Dark"]

/-- The lines of two types, the first of which is an enum. -/
def furtherSources : List String :=
  ["", "  Shade:", "    enum:", "      - Light", "  Wall:", "    properties:", "      side:",
    "        enum:", "          - North"]

theorem libraryTypes_append_cutOff :
    (∀ line ∈ Line.significant 1 cutOffSources, line.indent ≠ 0) ∧
      (Line.significant 1 furtherSources).head? = some ⟨2, 2, "Shade:"⟩ ∧
      Text.endsWith "Shade:" ":" ∧
      (libraryTypes .pascal ("types:" :: cutOffSources ++ furtherSources)).map (·.name) =
        ["Paint", "Shade", "Wall", "PaintShade", "WallSide"] ∧
      libraryTypes .pascal ("types:" :: cutOffSources ++ furtherSources) =
        declaredTypes (libraryTypes .pascal ("types:" :: cutOffSources)) ++
          declaredTypes (libraryTypes .pascal ("types:" :: furtherSources)) ++
          liftedTypes (libraryTypes .pascal ("types:" :: cutOffSources)) ++
          liftedTypes (libraryTypes .pascal ("types:" :: furtherSources)) :=
  have hbefore : ∀ line ∈ Line.significant 1 cutOffSources, line.indent ≠ 0 := by decide
  have hhead : (Line.significant 1 furtherSources).head? = some ⟨2, 2, "Shade:"⟩ := by decide
  ⟨hbefore, hhead, by decide, by decide,
    libraryTypes_append .pascal hbefore hhead rfl (by decide)⟩

end RamlSchema.Raml
