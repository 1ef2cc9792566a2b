import RamlSchema.Proofs.Raml.EnumValues
import RamlSchema.Proofs.Raml.Facets
import RamlSchema.Proofs.Raml.Sites

/-!
# The facets of a block

Reading a block goes through its lines, but the property that comes out depends on its facets alone,
one after another. An `items:` is the only facet that looks at lines behind it, and no further than
the next line two steps in, so the facets of a block are those of its parts. The enum is the one
thing that is settled apart from them: its reference takes the place of the type at the end.
-/

namespace RamlSchema.Raml

open PropertyBlock (Progress)

/-- A facet of a block, with the elements' type that an `items:` stands for. -/
inductive BlockFacet where
  | description (text : String)
  | type (token : String)
  | enum
  | items (items : Option Items)

def BlockFacet.kind : BlockFacet → FacetKind
  | .description _ => .description
  | .type _ => .type
  | .enum => .enum
  | .items _ => .items

def BlockFacet.token? : BlockFacet → Option String
  | .type token => some token
  | _ => none

/-- The property with what a facet says in place of what was said before. -/
def Property.addFacet (context : PropertyContext) (property : Property) : BlockFacet → Property
  | .description description => { property with description }
  | .type token =>
    { property with
      type := tokenType context.convention token
      format := (setFormat? context.property token).getD property.format
      reference := tokenReference? context.convention token
      token := some token }
  | .enum => { property with type := some (.single "string") }
  | .items items => { property with items }

def blockFacet (base : Int) (convention : Convention) (following : List Line) :
    Facet → BlockFacet
  | .description text => .description text
  | .type token => .type token
  | .enum => .enum
  | .items token =>
    .items <|
      if token.isEmpty then PropertyBlock.nestedItems base convention following
      else some (PropertyBlock.itemsOf convention token)

/-- The facet on a line two steps in, with the lines that follow it. -/
def blockFacet? (base : Int) (convention : Convention) (line : Line) (following : List Line) :
    Option BlockFacet :=
  if line.indent = base + 2 then
    (Facet.ofText? line.text).map (blockFacet base convention following)
  else none

def blockFacets (base : Int) (convention : Convention) : List Line → List BlockFacet
  | [] => []
  | line :: following =>
    (blockFacet? base convention line following).toList ++ blockFacets base convention following

def facetKinds (base : Int) (convention : Convention) (block : List Line) : List FacetKind :=
  (blockFacets base convention block).map (·.kind)

variable {base : Int} {convention : Convention} {context : PropertyContext} {line : Line}
  {following block xs rest : List Line}

/-! ### Tokens -/

namespace TypeToken

/-- A token that refers to nothing stands for a type. -/
theorem exists_jsonType?_of_reference? {convention : Convention} {token : String}
    (hnone : reference? convention token = none) :
    ∃ type, jsonType? token = some type ∧ type ≠ "" := by
  have htypes : ∀ entry ∈ scalarTypes, entry.2 ≠ "" := by decide
  rw [reference?, Option.map_eq_none_iff, target?] at hnone
  split at hnone
  case isTrue hplain =>
    rw [jsonType?]
    by_cases hempty : token.isEmpty
    · exact ⟨"string", if_pos hempty, by decide⟩
    · have hscalar : isScalar token = true := by simpa [hempty] using hplain
      obtain ⟨type, htype⟩ := Option.isSome_iff_exists.mp hscalar
      rw [if_neg hempty, htype]
      exact ⟨type, rfl, htypes (clean token, type) (mem_of_lookup_eq_some htype)⟩
  case isFalse => split at hnone <;> cases hnone

end TypeToken

/-- A token stands for a type or for a reference. -/
theorem tokenType_eq_none_iff (convention : Convention) (token : String) :
    tokenType convention token = none ↔ (tokenReference? convention token).isSome := by
  rw [tokenType, tokenReference?]
  split
  · simp
  · cases hreference : TypeToken.reference? convention token with
    | some reference => simp
    | none =>
      obtain ⟨type, htype, -⟩ := TypeToken.exists_jsonType?_of_reference? hreference
      simp [htype]

/-! ### Reading -/

theorem property_readFacet (base : Int) (context : PropertyContext) (line : Line)
    (following : List Line) (progress : Progress) (facet : Facet) :
    (PropertyBlock.readFacet base context line following progress facet).property =
      progress.property.addFacet context (blockFacet base context.convention following facet) := by
  cases facet with
  | description text => rfl
  | type token =>
    exact congrArg Scan.property (scan_readToken base line following token)
  | enum => rfl
  | items token => rfl

theorem property_readLine (base : Int) (context : PropertyContext) (line : Line)
    (following : List Line) (progress : Progress) :
    (PropertyBlock.readLine base context line following progress).property =
      (blockFacet? base context.convention line following).toList.foldl (Property.addFacet context)
        progress.property := by
  rw [PropertyBlock.readLine, blockFacet?]
  by_cases hindent : line.indent = base + 2
  · rw [if_pos hindent, if_pos hindent]
    cases Facet.ofText? line.text with
    | none => rfl
    | some facet => exact property_readFacet base context line following progress facet
  · rw [if_neg hindent, if_neg hindent]
    split
    · cases Line.entry? line.text <;> rfl
    · rfl

theorem property_read (base : Int) (context : PropertyContext) (progress : Progress)
    (block : List Line) :
    (PropertyBlock.read base context progress block).property =
      (blockFacets base context.convention block).foldl (Property.addFacet context)
        progress.property := by
  induction block generalizing progress with
  | nil => rfl
  | cons line following ih =>
    rw [PropertyBlock.read, ih, property_readLine, blockFacets, List.foldl_append]

section DropStrayItems

variable (property : Property)

@[simp]
theorem type_dropStrayItems : (PropertyBlock.dropStrayItems property).type = property.type := by
  rw [PropertyBlock.dropStrayItems]
  split <;> rfl

@[simp]
theorem description_dropStrayItems :
    (PropertyBlock.dropStrayItems property).description = property.description := by
  rw [PropertyBlock.dropStrayItems]
  split <;> rfl

@[simp]
theorem reference_dropStrayItems :
    (PropertyBlock.dropStrayItems property).reference = property.reference := by
  rw [PropertyBlock.dropStrayItems]
  split <;> rfl

@[simp]
theorem token_dropStrayItems : (PropertyBlock.dropStrayItems property).token = property.token := by
  rw [PropertyBlock.dropStrayItems]
  split <;> rfl

@[simp]
theorem format_dropStrayItems :
    (PropertyBlock.dropStrayItems property).format = property.format := by
  rw [PropertyBlock.dropStrayItems]
  split <;> rfl

end DropStrayItems

/-- The property that the facets of a block describe, one after another. -/
def readProperty (base : Int) (context : PropertyContext) (block : List Line) : Property :=
  (blockFacets base context.convention block).foldl (Property.addFacet context) {}

/-- The property of a block, its enum left aside. -/
def plainBlockProperty (base : Int) (context : PropertyContext) (block : List Line) : Property :=
  PropertyBlock.dropStrayItems (readProperty base context block)

def liftedReference (context : PropertyContext) : String :=
  (Target.enum (liftedName context.parent context.property)).reference context.convention

theorem property_resolve (base : Int) (context : PropertyContext) (number : Int)
    (declared : Option String) (following : List Line) :
    (PropertyBlock.resolve base context number declared following).property =
      if (PropertyBlock.enumValues base (PropertyBlock.lines base following)).isEmpty then
        plainBlockProperty base context (PropertyBlock.lines base following)
      else
        { plainBlockProperty base context (PropertyBlock.lines base following) with
          type := none
          reference := some (liftedReference context) } := by
  rw [PropertyBlock.resolve]
  dsimp only
  rw [PropertyBlock.values_read_empty, property_read]
  split
  case h_1 => split <;> rfl
  case h_2 hnone =>
    rw [PropertyBlock.enumValues_eq_nil_of_enumLine context hnone]
    rfl

/-! ### Parts of a block -/

theorem nestedItems_append (hrest : ∀ line ∈ rest.head?, line.indent ≤ base + 2) (xs : List Line) :
    PropertyBlock.nestedItems base convention (xs ++ rest) =
      PropertyBlock.nestedItems base convention xs := by
  have hlines := PropertyBlock.lines_append_of_shallow hrest xs
  rw [PropertyBlock.lines, PropertyBlock.lines] at hlines
  rw [PropertyBlock.nestedItems, PropertyBlock.nestedItems, hlines]

/-- Elements nested under an `items:` end in front of the next line two steps in. -/
theorem blockFacets_append (hrest : ∀ line ∈ rest.head?, line.indent ≤ base + 2)
    (xs : List Line) :
    blockFacets base convention (xs ++ rest) =
      blockFacets base convention xs ++ blockFacets base convention rest := by
  induction xs with
  | nil => rfl
  | cons line xs ih =>
    have hfacet : blockFacet? base convention line (xs ++ rest) =
        blockFacet? base convention line xs := by
      rw [blockFacet?, blockFacet?]
      congr 2
      funext facet
      cases facet <;> simp only [blockFacet, nestedItems_append hrest]
    rw [List.cons_append, blockFacets, blockFacets, hfacet, ih, List.append_assoc]

theorem blockFacets_append_cons {facet : BlockFacet}
    (hfacet : blockFacet? base convention line following = some facet) (before : List Line) :
    blockFacets base convention (before ++ line :: following) =
      blockFacets base convention before ++ facet :: blockFacets base convention following := by
  have hindent : line.indent = base + 2 := by
    by_contra hindent
    rw [blockFacet?, if_neg hindent] at hfacet
    cases hfacet
  have hhead : ∀ l ∈ (line :: following).head?, l.indent ≤ base + 2 := by
    rintro l ⟨⟩
    exact Int.le_of_eq hindent
  rw [blockFacets_append hhead, blockFacets, hfacet]
  rfl

/-- From a facet on, a block says what the facet and the lines behind it say last. -/
theorem readProperty_append_cons {facet : BlockFacet}
    (hfacet : blockFacet? base context.convention line following = some facet)
    (before : List Line) :
    readProperty base context (before ++ line :: following) =
      (blockFacets base context.convention following).foldl (Property.addFacet context)
        ((readProperty base context before).addFacet context facet) := by
  rw [readProperty, blockFacets_append_cons hfacet, List.foldl_append, List.foldl_cons]
  rfl

/-- Lines deeper than the facets of a block hold none of them. -/
theorem blockFacets_of_deep (hdeep : ∀ line ∈ block, base + 2 < line.indent) :
    blockFacets base convention block = [] := by
  induction block with
  | nil => rfl
  | cons line block ih =>
    have hline := hdeep line List.mem_cons_self
    rw [blockFacets, blockFacet?, if_neg (by omega)]
    exact ih fun l hl => hdeep l (List.mem_cons_of_mem _ hl)

/-! ### Behind the last type -/

section Untyped

variable {facets : List BlockFacet}

/-- Behind the last type, only an enum sets another one, and no facet sets a reference or a
format. -/
theorem exists_foldl_addFacet_of_untyped (context : PropertyContext)
    (huntyped : FacetKind.type ∉ facets.map (·.kind)) (property : Property) :
    ∃ description items, facets.foldl (Property.addFacet context) property =
      { property with
        type := if FacetKind.enum ∈ facets.map (·.kind) then some (.single "string")
          else property.type
        description
        items } := by
  induction facets generalizing property with
  | nil => exact ⟨property.description, property.items, rfl⟩
  | cons facet facets ih =>
    rw [List.map_cons, List.mem_cons, not_or] at huntyped
    obtain ⟨description, items, hfold⟩ := ih huntyped.2 (property.addFacet context facet)
    refine ⟨description, items, ?_⟩
    rw [List.foldl_cons, hfold]
    cases facet with
    | type token => exact absurd rfl huntyped.1
    | enum => simp [Property.addFacet, BlockFacet.kind]
    | description | items => simp [Property.addFacet, BlockFacet.kind]

end Untyped

end RamlSchema.Raml
