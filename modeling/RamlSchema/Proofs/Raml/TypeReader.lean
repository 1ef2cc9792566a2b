import RamlSchema.Proofs.Entries
import RamlSchema.Proofs.Raml.Blocks
import RamlSchema.Proofs.Raml.Facets

/-!
# Reading the facets of a type

Libraries and files of a single type are read by two state machines. What both do with the rows of a
type follows from a few obligations about single lines, which each of them meets in its own way.
-/

namespace RamlSchema.Raml

/-! ### What rows add to a block -/

namespace Block

def describe (block : Block) (text : String) : Block :=
  { block with type := { block.type with description := text } }

def asEnum (block : Block) : Block := { block with type := { block.type with isEnum := true } }

def addValues (block : Block) (values : List Value) : Block :=
  { block with type := { block.type with values := block.type.values ++ values.map (·.text) } }

/-- The property as it is read from its rows, with the enum in it. -/
def addOutline (convention : Convention) (block : Block) (outline : PropertyOutline) : Block :=
  { type :=
      block.type.addProperty outline.name (outline.readProperty convention block.type.name)
        outline.isOptional
    lifted := block.lifted ++ outline.lifted block.type.name }

def addMembers (convention : Convention) (block : Block) : Members → Block
  | .none => block
  | .enum values => block.asEnum.addValues values
  | .properties outlines _ => outlines.foldl (addOutline convention) block

def describe? (block : Block) : Option Phrase → Block
  | none => block
  | some text => block.describe text.text

theorem addEntry_value (block : Block) (value : Value) :
    block.addEntry ("- " ++ value.text) = block.addValues [value] := by
  rw [addEntry, Declaration.addEntry, entry?_value]
  rfl

theorem addValues_addValues (block : Block) (values others : List Value) :
    (block.addValues values).addValues others = block.addValues (values ++ others) := by
  simp [addValues]

theorem heading?_markedName (outline : PropertyOutline) :
    Line.heading? (markedName outline.name outline.isOptional ++ ":") =
      some (markedName outline.name outline.isOptional) := by
  rw [Line.heading?, Text.dropSuffix?_append, Option.map_some, outline.trimmed]

theorem propertyName_markedName (outline : PropertyOutline) :
    propertyName (markedName outline.name outline.isOptional) =
      (outline.name, outline.isOptional) := by
  rw [propertyName, markedName]
  cases hoptional : outline.isOptional with
  | false => rw [if_neg (by decide), outline.unmarked hoptional]
  | true => rw [if_pos rfl, Text.dropSuffix?_append]

/-- The rows of a property are read as one property, down to the next row that is no deeper. -/
theorem addProperty_rows {convention : Convention} {outline : PropertyOutline} {line : Line}
    {rest : List Row} (hrest : ∀ row ∈ rest.head?, row.indent ≤ line.indent) (block : Block)
    (number : Int) :
    block.addProperty convention (markedName outline.name outline.isOptional) line
        (Row.place number (outline.facets.flatMap (·.rows (line.indent + 2)) ++ rest)) =
      block.addOutline convention outline := by
  obtain ⟨hproperty, hlifted⟩ := PropertyOutline.resolve_rows
    ⟨block.type.name, outline.name, convention, outline.isOptional⟩ outline rfl hrest line.number
    number (some line.text) rfl
  rw [addProperty, addOutline, resolveHeading, Declaration.addResolution,
    propertyName_markedName]
  simp only [hproperty, hlifted]

theorem addOutline_of_new {convention : Convention} {block : Block} {outline : PropertyOutline}
    (hkey : outline.name ∉ block.type.properties.keys)
    (hrequired : outline.name ∉ block.type.required) :
    block.addOutline convention outline =
      { type :=
          { block.type with
            properties := block.type.properties ++
              [(outline.name, outline.readProperty convention block.type.name)]
            required := block.type.required ++ if outline.isOptional then [] else [outline.name] }
        lifted := block.lifted ++ outline.lifted block.type.name } := by
  rw [addOutline, Declaration.addProperty, Entries.put_eq_append hkey]
  cases outline.isOptional <;> simp [hrequired]

theorem foldl_addOutline {convention : Convention} {outlines : List PropertyOutline}
    (hdistinct : (outlines.map (·.name)).Nodup) {block : Block}
    (hnew : ∀ outline ∈ outlines,
      outline.name ∉ block.type.properties.keys ∧ outline.name ∉ block.type.required) :
    outlines.foldl (addOutline convention) block =
      { type :=
          { block.type with
            properties := block.type.properties ++
              outlines.map fun o => (o.name, o.readProperty convention block.type.name)
            required := block.type.required ++
              (outlines.filter (!·.isOptional)).map (·.name) }
        lifted := block.lifted ++ outlines.flatMap (·.lifted block.type.name) } := by
  induction outlines generalizing block with
  | nil => simp
  | cons outline outlines ih =>
    rw [List.map_cons, List.nodup_cons] at hdistinct
    obtain ⟨hkey, hrequired⟩ := hnew outline List.mem_cons_self
    rw [List.foldl_cons, addOutline_of_new hkey hrequired, ih hdistinct.2]
    · cases hoptional : outline.isOptional <;> simp [hoptional]
    · intro other hother
      have hne : other.name ≠ outline.name := fun heq =>
        hdistinct.1 (heq ▸ List.mem_map_of_mem hother)
      obtain ⟨hotherKey, hotherRequired⟩ := hnew other (List.mem_cons_of_mem _ hother)
      rw [Entries.keys] at hotherKey ⊢
      cases outline.isOptional <;> simp_all

theorem addMembers_eq (convention : Convention) (name description : String) (members : Members) :
    addMembers convention { type := { name, description } } members =
      { type :=
          { name, description
            properties := members.outlines.map fun o => (o.name, o.readProperty convention name)
            required := (members.outlines.filter (!·.isOptional)).map (·.name)
            isEnum := members.isEnum
            values := members.values }
        lifted := members.outlines.flatMap (·.lifted name) } := by
  cases members with
  | none => rfl
  | enum values => rfl
  | properties outlines hdistinct =>
    rw [addMembers, foldl_addOutline hdistinct fun _ _ => ⟨List.not_mem_nil, List.not_mem_nil⟩]
    rfl

end Block

/-- The type that is read from the rows of an outline. -/
def TypeOutline.readDeclaration (convention : Convention) (name : String) (outline : TypeOutline) :
    Declaration :=
  { outline.declaration convention name with
    properties := outline.members.outlines.map fun o => (o.name, o.readProperty convention name) }

/-! ### Obligations about single lines -/

/-- A state machine that reads the lines of one type, with its facets at the margin and properties
or values two steps in. Each line that is read leads to a state from which the rest is read. -/
structure TypeReader (convention : Convention) (margin : Nat) (σ : Type) where
  read : σ → List Line → σ
  block : σ → Block
  /-- No members have been read. -/
  IsFresh : σ → Prop
  TakesValues : σ → Prop
  TakesProperties : σ → Prop
  describe : ∀ s line {text}, line.indent = margin →
    Line.facet? "description:" line.text = some text → ∀ following,
      ∃ s', read s (line :: following) = read s' following ∧
        block s' = (block s).describe text ∧ (IsFresh s → IsFresh s')
  enum : ∀ s line, IsFresh s → line.indent = margin → line.text = "enum:" → ∀ following,
    ∃ s', read s (line :: following) = read s' following ∧
      block s' = (block s).asEnum ∧ TakesValues s'
  properties : ∀ s line, IsFresh s → line.indent = margin → line.text = "properties:" →
    ∀ following, ∃ s', read s (line :: following) = read s' following ∧
      block s' = block s ∧ TakesProperties s'
  value : ∀ s line, TakesValues s → line.indent = margin + 2 → ∀ following,
    ∃ s', read s (line :: following) = read s' following ∧
      block s' = (block s).addEntry line.text ∧ TakesValues s'
  property : ∀ s line {heading}, TakesProperties s → line.indent = margin + 2 →
    Line.heading? line.text = some heading → ∀ following,
      ∃ s', read s (line :: following) = read s' following ∧
        block s' = (block s).addProperty convention heading line following ∧ TakesProperties s'
  deeper : ∀ s line, margin + 2 < line.indent → ∀ following,
    read s (line :: following) = read s following

namespace TypeReader

variable {convention : Convention} {margin : Nat} {σ : Type}
  (reader : TypeReader convention margin σ)

/-- Reading `rows` in front of `rest` leads to a state with the block and the property given. -/
def Leads (s : σ) (rows rest : List Row) (block : Block) (P : σ → Prop) : Prop :=
  ∀ number, ∃ s' number', reader.read s (Row.place number (rows ++ rest)) =
    reader.read s' (Row.place number' rest) ∧ reader.block s' = block ∧ P s'

variable {reader} {s : σ} {rest : List Row}

theorem leads_nil {P : σ → Prop} (hs : P s) : reader.Leads s [] rest (reader.block s) P :=
  fun number => ⟨s, number, rfl, rfl, hs⟩

theorem Leads.append {rows more : List Row} {block block' : Block} {P Q : σ → Prop}
    (hrows : reader.Leads s rows (more ++ rest) block P)
    (hmore : ∀ s', reader.block s' = block → P s' → reader.Leads s' more rest block' Q) :
    reader.Leads s (rows ++ more) rest block' Q := by
  intro number
  obtain ⟨s', number', hread, hblock, hs'⟩ := hrows number
  obtain ⟨s'', number'', hread', hblock', hs''⟩ := hmore s' hblock hs' number'
  refine ⟨s'', number'', ?_, hblock', hs''⟩
  rw [List.append_assoc, hread, hread']

theorem Leads.weaken {rows : List Row} {block : Block} {P : σ → Prop}
    (hrows : reader.Leads s rows rest block P) : reader.Leads s rows rest block fun _ => True := by
  intro number
  obtain ⟨s', number', hread, hblock, -⟩ := hrows number
  exact ⟨s', number', hread, hblock, trivial⟩

theorem leads_deeper (rest : List Row) {rows : List Row}
    (hrows : ∀ row ∈ rows, margin + 2 < row.indent) {P : σ → Prop} (hs : P s) :
    reader.Leads s rows rest (reader.block s) P := by
  induction rows with
  | nil => exact leads_nil hs
  | cons row rows ih =>
    intro number
    obtain ⟨s', number', hread, hblock, hs'⟩ :=
      ih (fun r hr => hrows r (List.mem_cons_of_mem row hr)) (number + 1)
    refine ⟨s', number', ?_, hblock, hs'⟩
    rw [List.cons_append, Row.place_cons, reader.deeper s _ (hrows row List.mem_cons_self), hread]

/-! ### What a type's rows lead to -/

theorem leads_values (rest : List Row) (values : List Value) (hs : reader.TakesValues s) :
    reader.Leads s (valueRows (margin + 2) values) rest ((reader.block s).addValues values)
      reader.TakesValues := by
  induction values generalizing s with
  | nil =>
    have hnone : (reader.block s).addValues [] = reader.block s := by simp [Block.addValues]
    rw [hnone]
    exact leads_nil hs
  | cons value values ih =>
    intro number
    obtain ⟨s', hread, hblock, hs'⟩ := reader.value s
      ⟨number, margin + 2, "- " ++ value.text⟩ hs rfl
      (Row.place (number + 1) (valueRows (margin + 2) values ++ rest))
    obtain ⟨s'', number'', hread', hblock', hs''⟩ := ih hs' (number + 1)
    refine ⟨s'', number'', ?_, ?_, hs''⟩
    · rw [← hread', ← hread]
      rfl
    · rw [hblock', hblock, Block.addEntry_value, Block.addValues_addValues]
      rfl

theorem leads_property (outline : PropertyOutline) (hs : reader.TakesProperties s)
    (hrest : ∀ row ∈ rest.head?, row.indent ≤ margin + 2) :
    reader.Leads s (outline.rows (margin + 2)) rest
      ((reader.block s).addOutline convention outline) reader.TakesProperties := by
  intro number
  obtain ⟨s', hread, hblock, hs'⟩ := reader.property s
    ⟨number, margin + 2, markedName outline.name outline.isOptional ++ ":"⟩ hs rfl
    (Block.heading?_markedName outline)
    (Row.place (number + 1) (outline.facets.flatMap (·.rows (margin + 2 + 2)) ++ rest))
  rw [Block.addProperty_rows hrest] at hblock
  have hdeep : ∀ row ∈ outline.facets.flatMap (·.rows (margin + 2 + 2)),
      margin + 2 < row.indent := by
    intro row hrow
    obtain ⟨facet, -, hrow⟩ := List.mem_flatMap.mp hrow
    have := facet.le_indent_of_mem_rows row hrow
    omega
  obtain ⟨s'', number'', hread', hblock', hs''⟩ := leads_deeper rest hdeep hs' (number + 1)
  refine ⟨s'', number'', ?_, hblock'.trans hblock, hs''⟩
  rw [← hread', ← hread]
  rfl

theorem leads_properties (outlines : List PropertyOutline) (hs : reader.TakesProperties s)
    (hrest : ∀ row ∈ rest.head?, row.indent ≤ margin + 2) :
    reader.Leads s (outlines.flatMap (·.rows (margin + 2))) rest
      (outlines.foldl (Block.addOutline convention) (reader.block s)) reader.TakesProperties := by
  induction outlines generalizing s with
  | nil => exact leads_nil hs
  | cons outline outlines ih =>
    rw [List.flatMap_cons, List.foldl_cons]
    refine (leads_property outline hs ?_).append ?_
    · cases outlines with
      | nil => exact hrest
      | cons next outlines =>
        intro row hrow
        obtain rfl := Option.some_inj.mp hrow
        exact le_rfl
    · rintro s' hblock hs'
      rw [← hblock]
      exact ih hs'

theorem leads_members (members : Members) (hs : reader.IsFresh s)
    (hrest : ∀ row ∈ rest.head?, row.indent ≤ margin) :
    reader.Leads s (members.rows margin) rest ((reader.block s).addMembers convention members)
      (fun _ => True) := by
  cases members with
  | none => exact leads_nil trivial
  | enum values =>
    intro number
    obtain ⟨s', hread, hblock, hs'⟩ := reader.enum s ⟨number, margin, "enum:"⟩ hs rfl rfl
      (Row.place (number + 1) (valueRows (margin + 2) values ++ rest))
    obtain ⟨s'', number'', hread', hblock', -⟩ := leads_values rest values hs' (number + 1)
    refine ⟨s'', number'', ?_, ?_, trivial⟩
    · rw [← hread', ← hread]
      rfl
    · rw [hblock', hblock]
      rfl
  | properties outlines hdistinct =>
    intro number
    obtain ⟨s', hread, hblock, hs'⟩ := reader.properties s
      ⟨number, margin, "properties:"⟩ hs rfl rfl
      (Row.place (number + 1) (outlines.flatMap (·.rows (margin + 2)) ++ rest))
    obtain ⟨s'', number'', hread', hblock', -⟩ := leads_properties outlines hs'
      (fun row hrow => (hrest row hrow).trans (Nat.le_add_right margin 2)) (number + 1)
    refine ⟨s'', number'', ?_, ?_, trivial⟩
    · rw [← hread', ← hread]
      rfl
    · rw [hblock', hblock]
      rfl

theorem leads_description (outline : TypeOutline) :
    reader.Leads s (outline.descriptionRows margin) rest
      ((reader.block s).describe? outline.description)
      (fun s' => reader.IsFresh s → reader.IsFresh s') := by
  rw [TypeOutline.descriptionRows]
  cases outline.description with
  | none => exact leads_nil id
  | some text =>
    intro number
    -- The row is named, so that its text is not evaluated when states are compared.
    have hrow : ∃ row : Row, Row.keyed margin "description:" text = row ∧ row.indent = margin ∧
        Line.facet? "description:" row.text = some text.text :=
      ⟨_, rfl, rfl, Row.facet?_keyed margin _ text⟩
    obtain ⟨row, hkeyed, hindent, hfacet⟩ := hrow
    obtain ⟨s', hread, hblock, hs'⟩ := reader.describe s
      ⟨number, row.indent, row.text⟩ hindent hfacet (Row.place (number + 1) rest)
    refine ⟨s', number + 1, ?_, hblock, hs'⟩
    rw [← hread, Option.toList_some, List.map_singleton, hkeyed]
    rfl

theorem leads_rows (outline : TypeOutline) (hs : reader.IsFresh s)
    (hrest : ∀ row ∈ rest.head?, row.indent ≤ margin) :
    reader.Leads s (outline.rows margin) rest
      (if outline.describedLast then
        ((reader.block s).addMembers convention outline.members).describe? outline.description
      else
        ((reader.block s).describe? outline.description).addMembers convention outline.members)
      (fun _ => True) := by
  rw [TypeOutline.rows]
  split
  · refine (leads_members outline.members hs ?_).append ?_
    · rw [TypeOutline.descriptionRows]
      cases outline.description with
      | none => exact hrest
      | some text =>
        intro row hrow
        obtain rfl := Option.some_inj.mp hrow
        exact le_rfl
    · intro s' hblock _
      rw [← hblock]
      exact (leads_description outline).weaken
  · refine (leads_description outline).append ?_
    intro s' hblock hs'
    rw [← hblock]
    exact leads_members outline.members (hs' hs) hrest

variable (reader s) in
/-- The rows of a type are read as the type, wherever its description stands. -/
theorem leads_type {name : String} (outline : TypeOutline) (hs : reader.IsFresh s)
    (hblock : reader.block s = { type := { name } })
    (hrest : ∀ row ∈ rest.head?, row.indent ≤ margin) :
    reader.Leads s (outline.rows margin) rest
      { type := outline.readDeclaration convention name, lifted := outline.lifted name }
      (fun _ => True) := by
  have hrows := leads_rows outline hs hrest
  rw [hblock] at hrows
  have hall : (if outline.describedLast then
        ((Block.mk { name } []).addMembers convention outline.members).describe?
          outline.description
      else
        ((Block.mk { name } []).describe? outline.description).addMembers convention
          outline.members) =
      { type := outline.readDeclaration convention name, lifted := outline.lifted name } := by
    split
    · rw [Block.addMembers_eq]
      cases hdescription : outline.description <;>
        simp [Block.describe?, Block.describe, TypeOutline.readDeclaration,
          TypeOutline.declaration, TypeOutline.lifted, hdescription]
    · cases hdescription : outline.description with
      | none =>
        rw [Block.describe?, Block.addMembers_eq]
        simp [TypeOutline.readDeclaration, TypeOutline.declaration, TypeOutline.lifted,
          hdescription]
      | some text =>
        rw [Block.describe?, Block.describe, Block.addMembers_eq]
        simp [TypeOutline.readDeclaration, TypeOutline.declaration, TypeOutline.lifted,
          hdescription]
  rwa [hall] at hrows

end TypeReader

end RamlSchema.Raml
