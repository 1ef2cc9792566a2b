import RamlSchema.Raml.Source

/-!
# Libraries as lists of blocks

A library is read line by line in one pass over the whole file. What the pass finds is the list of
its blocks, each read by itself: a block begins behind the line that names a type, and ends in front
of the next such line or of the next section. The findings have no part in the types.
-/

namespace RamlSchema.Raml

/-! ### Lines of a type -/

/-- The facets that members stand under are no descriptions. -/
theorem facet?_description_of_eq {text : String} (htext : text = "enum:" ∨ text = "properties:") :
    Line.facet? "description:" text = none := by
  rcases htext with rfl | rfl <;> rfl

theorem Declaration.addEntry_eq (declaration : Declaration) (text : String) :
    declaration.addEntry text =
      { declaration with values := declaration.values ++ (Line.entry? text).toList } := by
  rw [addEntry]
  cases Line.entry? text <;> simp

/-! ### Blocks -/

/-- A type while its lines are read, with the enums lifted out of it so far. -/
structure Block where
  type : Declaration
  lifted : List Declaration := []
  deriving DecidableEq, Repr

namespace Block

def addEntry (block : Block) (text : String) : Block :=
  { block with type := block.type.addEntry text }

/-- The property whose heading stands on a line, and the enum in it. -/
def addProperty (convention : Convention) (heading : String) (line : Line) (following : List Line)
    (block : Block) : Block :=
  let resolution := resolveHeading convention block.type.name heading line following
  { type := block.type.addResolution heading resolution
    lifted := block.lifted ++ resolution.liftedEnum.toList }

end Block

namespace Library

def typeName? (line : Line) : Option String :=
  if line.indent = 2 then Line.heading? line.text else none

/-- Whether a line ends the block in front of it. A further `types:` at the margin does not. -/
def closes (line : Line) : Bool :=
  if line.indent = 0 then line.text != "types:" else (typeName? line).isSome

/-- The names of the types, each with all the lines that follow it in the file. -/
def openings : (inTypes : Bool) → List Line → List (String × List Line)
  | _, [] => []
  | inTypes, line :: following =>
    if line.indent = 0 then openings (line.text = "types:") following
    else
      match if inTypes then typeName? line else none with
      | some name => (name, following) :: openings inTypes following
      | none => openings inTypes following

/-- Lines deeper than the names of types begin no type. -/
theorem openings_append_of_deep {deep : List Line} (hdeep : ∀ line ∈ deep, 2 < line.indent)
    (rest : List Line) : openings true (deep ++ rest) = openings true rest := by
  induction deep with
  | nil => rfl
  | cons line deep ih =>
    have hline := hdeep line List.mem_cons_self
    have hname : typeName? line = none := if_neg (by omega)
    rw [List.cons_append, openings, if_neg (by omega), if_pos rfl, hname,
      ih fun l hl => hdeep l (List.mem_cons_of_mem line hl)]

def readBlockMember (convention : Convention) (line : Line) (following : List Line)
    (block : Block) : Block :=
  if block.type.isEnum then block.addEntry line.text
  else
    match Line.heading? line.text with
    | none => block
    | some heading => block.addProperty convention heading line following

def readBlockLine (convention : Convention) (line : Line) (following : List Line)
    (block : Block) : Block :=
  if line.indent = 4 then { block with type := readFacet line block.type }
  else if line.indent = 6 then readBlockMember convention line following block
  else block

/-- Reads on to the line that closes the block. -/
def readBlock (convention : Convention) (block : Block) : List Line → Block
  | [] => block
  | line :: following =>
    if closes line then block
    else readBlock convention (readBlockLine convention line following block) following

def blockOf (convention : Convention) (opening : String × List Line) : Block :=
  readBlock convention { type := { name := opening.1 } } opening.2

/-! ### One pass is all blocks -/

/-- What the pass has read, as blocks: the closed ones, and the one that is open. Blocks are open
only under `types:`. -/
structure Progress.Holds (progress : Progress) (closed : List Block) (current : Option Block) :
    Prop where
  current_eq : progress.current = current.map (·.type)
  done_eq : progress.done = closed.map (·.type)
  lifted_eq : progress.lifted = (closed ++ current.toList).flatMap (·.lifted)
  inTypes_of_isSome : current.isSome → progress.inTypes = true

theorem Progress.Holds.close {progress : Progress} {closed : List Block} {current : Option Block}
    (hholds : progress.Holds closed current) :
    progress.close.Holds (closed ++ current.toList) none where
  current_eq := rfl
  done_eq := by
    rw [Progress.close, hholds.done_eq, hholds.current_eq]
    cases current <;> simp
  lifted_eq := by simp [Progress.close, hholds.lifted_eq]
  inTypes_of_isSome := nofun

theorem Progress.Holds.eq_none {progress : Progress} {closed : List Block} {current : Option Block}
    (hholds : progress.Holds closed current) (hinTypes : ¬progress.inTypes) : current = none := by
  rw [Option.eq_none_iff_forall_ne_some]
  rintro block rfl
  exact hinTypes (hholds.inTypes_of_isSome rfl)

/-- A line of an open block changes that block only. -/
theorem readBody_holds (convention : Convention) (line : Line) (following : List Line)
    {progress : Progress} {closed : List Block} {block : Block}
    (hholds : progress.Holds closed (some block)) :
    (readBody convention line following block.type progress).Holds closed
      (some (readBlockLine convention line following block)) ∧
    (readBody convention line following block.type progress).inTypes = progress.inTypes := by
  obtain ⟨hcurrent, hdone, hlifted, hinTypes⟩ := hholds
  have hopen : progress.inTypes = true := hinTypes rfl
  rw [readBody, readBlockLine]
  split
  · exact ⟨⟨rfl, hdone, by simpa using hlifted, fun _ => hopen⟩, rfl⟩
  · split
    · rw [readMember, readBlockMember]
      split
      · exact ⟨⟨rfl, hdone, by simpa [Block.addEntry] using hlifted, fun _ => hopen⟩, rfl⟩
      · cases Line.heading? line.text with
        | none => exact ⟨⟨hcurrent, hdone, hlifted, fun _ => hopen⟩, rfl⟩
        | some heading =>
          refine ⟨⟨rfl, hdone, ?_, fun _ => hopen⟩, rfl⟩
          simp [Block.addProperty, hlifted]
    · exact ⟨⟨hcurrent, hdone, hlifted, fun _ => hopen⟩, rfl⟩

/-- The blocks that a pass ends with: those that were closed, the open one read to its end, and
those that the remaining lines open. -/
def blocksFrom (convention : Convention) (inTypes : Bool) (closed : List Block)
    (current : Option Block) (lines : List Line) : List Block :=
  closed ++ (current.map (readBlock convention · lines)).toList ++
    (openings inTypes lines).map (blockOf convention)

theorem blocksFrom_cons_of_not_closes {convention : Convention} {line : Line}
    (hcloses : closes line = false) (inTypes : Bool) (closed : List Block)
    (current : Option Block) (following : List Line) :
    blocksFrom convention inTypes closed current (line :: following) =
      closed ++ ((current.map (readBlockLine convention line following)).map
        (readBlock convention · following)).toList ++
          (openings inTypes (line :: following)).map (blockOf convention) := by
  cases current <;> simp [blocksFrom, readBlock, hcloses]

theorem blocksFrom_cons_of_closes {convention : Convention} {line : Line}
    (hcloses : closes line = true) (inTypes : Bool) (closed : List Block)
    (current : Option Block) (following : List Line) :
    blocksFrom convention inTypes closed current (line :: following) =
      closed ++ current.toList ++
        (openings inTypes (line :: following)).map (blockOf convention) := by
  cases current <;> simp [blocksFrom, readBlock, hcloses]

theorem readSection_holds {convention : Convention} {line : Line} {following : List Line}
    {progress : Progress} {closed : List Block} {current : Option Block}
    (hholds : progress.Holds closed current) (hmargin : line.indent = 0) :
    ∃ closed' current',
      (readSection line progress).Holds closed' current' ∧
      blocksFrom convention (readSection line progress).inTypes closed' current' following =
        blocksFrom convention progress.inTypes closed current (line :: following) := by
  have hopenings :
      openings progress.inTypes (line :: following) =
        openings (line.text = "types:") following := by
    rw [openings, if_pos hmargin]
  rw [readSection]
  split
  case isTrue htypes =>
    have hcloses : closes line = false := by simp [closes, hmargin, htypes]
    have hsame : current.map (readBlockLine convention line following) = current := by
      cases current <;> simp [readBlockLine, hmargin]
    refine ⟨closed, current, ⟨hholds.1, hholds.2, hholds.3, fun _ => rfl⟩, ?_⟩
    rw [blocksFrom_cons_of_not_closes hcloses, hsame, hopenings, decide_eq_true htypes, blocksFrom]
  case isFalse htypes =>
    have hcloses : closes line = true := by simp [closes, hmargin, htypes]
    rw [blocksFrom_cons_of_closes hcloses, hopenings, decide_eq_false htypes]
    split
    case isTrue =>
      have hclose := hholds.close
      exact ⟨_, none, ⟨hclose.1, hclose.2, hclose.3, nofun⟩, by simp [blocksFrom]⟩
    case isFalse hinTypes =>
      have hnone : current = none := hholds.eq_none hinTypes
      refine ⟨closed, current, hholds, ?_⟩
      rw [hnone, Bool.eq_false_iff.mpr hinTypes]
      simp [blocksFrom]

/-- Each line leaves the blocks that the pass ends with as they are. -/
theorem readLine_holds (convention : Convention) (line : Line) (following : List Line)
    {progress : Progress} {closed : List Block} {current : Option Block}
    (hholds : progress.Holds closed current) :
    ∃ closed' current',
      (readLine convention line following progress).Holds closed' current' ∧
      blocksFrom convention (readLine convention line following progress).inTypes closed' current'
        following = blocksFrom convention progress.inTypes closed current (line :: following) := by
  rw [readLine]
  split
  case isTrue hmargin => exact readSection_holds hholds hmargin
  case isFalse hmargin =>
    split
    case isTrue hinTypes =>
      -- Outside of `types:` no block is open that the line could belong to.
      have hclosed : progress.inTypes = false := by simpa using hinTypes
      have hnone : current = none := hholds.eq_none (by simp [hclosed])
      refine ⟨closed, current, hholds, ?_⟩
      simp [blocksFrom, hnone, hclosed, openings, hmargin]
    case isFalse hinTypes =>
      have hopen : progress.inTypes = true := by simpa using hinTypes
      have hopenings : openings progress.inTypes (line :: following) =
          match typeName? line with
          | some name => (name, following) :: openings progress.inTypes following
          | none => openings progress.inTypes following := by
        simp [openings, hmargin, hopen]
      rw [← typeName?]
      cases hname : typeName? line with
      | some name =>
        have hcloses : closes line = true := by simp [closes, hmargin, hname]
        have hclose := hholds.close
        refine ⟨closed ++ current.toList, some { type := { name } },
          ⟨rfl, hclose.done_eq, by simpa using hclose.lifted_eq, fun _ => hopen⟩, ?_⟩
        rw [blocksFrom_cons_of_closes hcloses, hopenings, hname]
        simp [blocksFrom, blockOf, Progress.close]
      | none =>
        have hcloses : closes line = false := by simp [closes, hmargin, hname]
        rw [blocksFrom_cons_of_not_closes hcloses, hopenings, hname, hholds.current_eq]
        cases current with
        | none => exact ⟨closed, none, hholds, rfl⟩
        | some block =>
          obtain ⟨hbody, hinBody⟩ := readBody_holds convention line following hholds
          exact ⟨closed, _, hbody, congrArg (blocksFrom convention · closed _ following) hinBody⟩

theorem read_holds (convention : Convention) {progress : Progress} {closed : List Block}
    {current : Option Block} (hholds : progress.Holds closed current) (lines : List Line) :
    (read convention progress lines).close.Holds
      (blocksFrom convention progress.inTypes closed current lines) none := by
  induction lines generalizing progress closed current with
  | nil =>
    have hall : blocksFrom convention progress.inTypes closed current [] =
        closed ++ current.toList := by
      cases current <;> simp [blocksFrom, openings, readBlock]
    rw [hall]
    exact hholds.close
  | cons line following ih =>
    obtain ⟨closed', current', hstep, hblocks⟩ := readLine_holds convention line following hholds
    rw [read, ← hblocks]
    exact ih hstep

def blocks (convention : Convention) (lines : List Line) : List Block :=
  (openings false lines).map (blockOf convention)

/-- **Libraries are lists of blocks.** The types of all blocks come in order, and then the enums
lifted out of them, in the same order. -/
theorem types_eq_blocks (convention : Convention) (lines : List Line) :
    (types convention lines).1 =
      (blocks convention lines).map (·.type) ++ (blocks convention lines).flatMap (·.lifted) := by
  have hstart : Progress.Holds {} [] none := ⟨rfl, rfl, rfl, nofun⟩
  have hread := read_holds convention hstart lines
  rw [types, hread.done_eq, hread.lifted_eq]
  simp [blocksFrom, blocks]

end Library

end RamlSchema.Raml
