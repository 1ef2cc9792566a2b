import RamlSchema.Proofs.Schema.ClosedObjects
import RamlSchema.Proofs.Success

/-!
# Type keywords

A type reaches a document through the tokens behind `type:` and `items:`, in two layouts, and
through the enums among the facets. The token of any value stands for the JSON type `any`, which is
none of JSON Schema, so no document may show it, and a type that is missing must not be shown as
null. Both are settled where a document is written: what may be anything gets an empty schema, and a
type goes missing only where a reference stands in its place. What the invariant over the lines of a
block has to carry is where a type comes from.
-/

namespace RamlSchema

namespace Raml

def jsonTypes : List String :=
  ["string", "number", "integer", "boolean", "object", "array", "null"]

namespace TypeToken

/-- The JSON types of the members of a union. -/
def memberTypes (convention : Convention) (token : String) : List String :=
  (members token).map (memberType convention)

theorem memberTypes_ne_nil (convention : Convention) (token : String) :
    memberTypes convention token ≠ [] := by
  rw [memberTypes, members, Text.split, Ne, List.map_eq_nil_iff, List.map_eq_nil_iff,
    List.map_eq_nil_iff, Text.splitChars]
  split
  · exact List.cons_ne_nil _ _
  · split <;> exact List.cons_ne_nil _ _

theorem scalarType?_mem {token type : String} (htype : scalarType? token = some type) :
    type = "any" ∨ type ∈ jsonTypes := by
  have hall : ∀ entry ∈ scalarTypes, entry.2 = "any" ∨ entry.2 ∈ jsonTypes := by decide
  exact hall (clean token, type) (mem_of_lookup_eq_some htype)

theorem jsonType?_mem {token type : String} (htype : jsonType? token = some type) :
    type = "any" ∨ type ∈ jsonTypes := by
  rw [jsonType?] at htype
  split at htype
  · obtain rfl := Option.some_inj.mp htype
    exact .inr (by decide)
  · split at htype
    case h_1 scalar hscalar =>
      rw [htype] at hscalar
      exact scalarType?_mem hscalar
    case h_2 =>
      split at htype
      · cases htype
      · obtain rfl := Option.some_inj.mp htype
        exact .inr (by decide)

theorem memberType_mem (convention : Convention) (token : String) :
    memberType convention token = "any" ∨ memberType convention token ∈ jsonTypes := by
  rw [memberType]
  split
  · exact .inr (by decide)
  · split
    case h_1 type htype => exact scalarType?_mem htype
    case h_2 =>
      split
      · split <;> exact .inr (by decide)
      · exact .inr (by decide)

end TypeToken

/-- The tokens of types in lines: what stands behind a `type:` or an `items:`. -/
def typeTokens (lines : List Line) : List String :=
  lines.filterMap fun line => (Line.facet? "type:" line.text).or (Line.facet? "items:" line.text)

/-- A single type, or the types of the members of a union that stands among the tokens. -/
inductive TypeKeyword.IsFrom (convention : Convention) (tokens : List String) : TypeKeyword → Prop
  | single {name : String} (hname : name = "any" ∨ name ∈ jsonTypes) :
    IsFrom convention tokens (.single name)
  | union {token : String} (hmem : token ∈ tokens) (hunion : TypeToken.isUnion token = true) :
    IsFrom convention tokens (.union (TypeToken.memberTypes convention token))

/-- Elements with a type or a reference in its place. -/
def Items.AreFrom (convention : Convention) (tokens : List String) (items : Items) : Prop :=
  (∃ reference, items.reference = some reference ∧ reference ≠ "") ∨
    ∃ keyword, items.type = some keyword ∧ keyword.IsFrom convention tokens

structure Property.IsFrom (convention : Convention) (tokens : List String) (property : Property) :
    Prop where
  type_isFrom : ∀ keyword, property.type = some keyword → keyword.IsFrom convention tokens
  items_areFrom : ∀ items, property.items = some items → items.AreFrom convention tokens

theorem Property.isFrom_of_items_eq_none {convention : Convention} {tokens : List String}
    {property : Property} (hitems : property.items = none)
    (htype : ∀ keyword, property.type = some keyword → keyword.IsFrom convention tokens) :
    property.IsFrom convention tokens := by
  refine ⟨htype, fun items hsome => ?_⟩
  rw [hitems] at hsome
  cases hsome

/-! ### Reading a block -/

namespace PropertyBlock

variable {base : Int} {context : PropertyContext} {line : Line} {following : List Line}
  {progress : Progress} {tokens : List String} {token : String}

theorem mem_typeTokens {lines : List Line} (hline : line ∈ lines)
    (hfacet : Line.facet? "type:" line.text = some token ∨
      Facet.ofText? line.text = some (.items token)) : token ∈ typeTokens lines := by
  rw [typeTokens, List.mem_filterMap]
  refine ⟨line, hline, ?_⟩
  rcases hfacet with htype | hitems
  · rw [htype, Option.some_or]
  · unfold Facet.ofText? at hitems
    split at hitems
    · cases hitems
    · have hothers : Line.facet? "description:" line.text = none ∧
          Line.facet? "type:" line.text = none ∧
          Line.facet? "items:" line.text = some token := by simpa using hitems
      rw [hothers.2.1, Option.none_or, hothers.2.2]

theorem typeTokens_subset_of_cons (htokens : typeTokens (line :: following) ⊆ tokens) :
    typeTokens following ⊆ tokens := by
  apply List.Subset.trans _ htokens
  exact List.filterMap_subset _ (List.subset_cons_self line following)

theorem areFrom_itemsOf (convention : Convention) (hmem : token ∈ tokens) :
    (itemsOf convention token).AreFrom convention tokens := by
  rw [itemsOf]
  by_cases hunion : TypeToken.isUnion token
  · rw [if_pos hunion]
    exact .inr ⟨_, rfl, .union hmem hunion⟩
  · rw [if_neg hunion]
    cases htarget : TypeToken.reference? convention token with
    | some reference =>
      obtain ⟨target, -, rfl⟩ := Option.map_eq_some_iff.mp htarget
      exact .inl ⟨_, rfl, reference_ne_empty convention target⟩
    | none =>
      obtain ⟨type, hjson, -⟩ := TypeToken.exists_jsonType?_of_reference? htarget
      exact .inr ⟨.single type, by rw [hjson]; rfl, .single (TypeToken.jsonType?_mem hjson)⟩

theorem areFrom_nestedItems {convention : Convention} {items : Items}
    (htokens : typeTokens following ⊆ tokens)
    (hitems : nestedItems base convention following = some items) :
    items.AreFrom convention tokens := by
  obtain ⟨token, hfound, rfl⟩ := Option.map_eq_some_iff.mp hitems
  obtain ⟨line, hline, htoken⟩ := List.exists_of_findSome?_eq_some hfound
  rw [Option.ite_none_right_eq_some] at htoken
  apply areFrom_itemsOf
  exact htokens (mem_typeTokens (List.takeWhile_subset _ hline) (.inl htoken.2))

end PropertyBlock

section Reading

variable {base : Int} {convention : Convention} {context : PropertyContext} {line : Line}
  {following block : List Line} {tokens : List String} {token : String} {keyword : TypeKeyword}
  {facet : BlockFacet} {property : Property}

/-- A facet whose types are those of given tokens. -/
def BlockFacet.IsFrom (convention : Convention) (tokens : List String) : BlockFacet → Prop
  | .type token => token ∈ tokens
  | .items given => ∀ items, given = some items → items.AreFrom convention tokens
  | .description _ | .enum => True

theorem isFrom_blockFacet? (htokens : typeTokens (line :: following) ⊆ tokens)
    (hfacet : blockFacet? base convention line following = some facet) :
    facet.IsFrom convention tokens := by
  rw [blockFacet?, Option.ite_none_right_eq_some] at hfacet
  obtain ⟨written, hwritten, rfl⟩ := Option.map_eq_some_iff.mp hfacet.2
  cases written with
  | description | enum => trivial
  | type token =>
    have htype : Line.facet? "type:" line.text = some token := by
      rw [PropertyBlock.facet?_type, hwritten]
      rfl
    exact htokens (PropertyBlock.mem_typeTokens List.mem_cons_self (.inl htype))
  | items token =>
    intro items hitems
    by_cases hempty : token.isEmpty
    · rw [if_pos hempty] at hitems
      exact PropertyBlock.areFrom_nestedItems (PropertyBlock.typeTokens_subset_of_cons htokens)
        hitems
    · rw [if_neg hempty] at hitems
      obtain rfl := Option.some_inj.mp hitems
      apply PropertyBlock.areFrom_itemsOf
      exact htokens (PropertyBlock.mem_typeTokens List.mem_cons_self (.inr hwritten))

theorem isFrom_of_mem_blockFacets (htokens : typeTokens block ⊆ tokens) :
    ∀ facet ∈ blockFacets base convention block, facet.IsFrom convention tokens := by
  induction block with
  | nil => exact nofun
  | cons line following ih =>
    rw [blockFacets, List.forall_mem_append]
    refine ⟨fun facet hfacet => ?_, ih (PropertyBlock.typeTokens_subset_of_cons htokens)⟩
    exact isFrom_blockFacet? htokens (Option.mem_toList.mp hfacet)

theorem isFrom_tokenType (hmem : token ∈ tokens)
    (htype : tokenType convention token = some keyword) : keyword.IsFrom convention tokens := by
  rw [tokenType] at htype
  split at htype
  case isTrue hunion =>
    obtain rfl := Option.some_inj.mp htype
    exact .union hmem hunion
  case isFalse =>
    rw [Option.ite_none_left_eq_some] at htype
    obtain ⟨type, hjson, rfl⟩ := Option.map_eq_some_iff.mp htype.2
    exact .single (TypeToken.jsonType?_mem hjson)

theorem isFrom_addFacet (h : property.IsFrom context.convention tokens)
    (hfacet : facet.IsFrom context.convention tokens) :
    (property.addFacet context facet).IsFrom context.convention tokens := by
  cases facet with
  | description text => exact ⟨h.type_isFrom, h.items_areFrom⟩
  | items items => exact ⟨h.type_isFrom, hfacet⟩
  | type token => exact ⟨fun keyword => isFrom_tokenType hfacet, h.items_areFrom⟩
  | enum =>
    refine ⟨?_, h.items_areFrom⟩
    intro keyword hkeyword
    obtain rfl := Option.some_inj.mp hkeyword
    exact .single (.inr (by decide))

theorem isFrom_readProperty (base : Int) (context : PropertyContext)
    (htokens : typeTokens block ⊆ tokens) :
    (readProperty base context block).IsFrom context.convention tokens := by
  have hstart : ({} : Property).IsFrom context.convention tokens := by
    apply Property.isFrom_of_items_eq_none rfl
    intro keyword hkeyword
    obtain rfl := Option.some_inj.mp hkeyword
    exact .single (.inr (by decide))
  exact List.foldlRecOn _ _ hstart fun property h facet hfacet =>
    isFrom_addFacet h (isFrom_of_mem_blockFacets htokens facet hfacet)

/-- What the lines of a block say about a type, the property has. -/
theorem isFrom_resolve (base : Int) (context : PropertyContext) (number : Int)
    (declared : Option String) (htokens : typeTokens following ⊆ tokens) :
    (PropertyBlock.resolve base context number declared following).property.IsFrom
      context.convention tokens := by
  have hblock : typeTokens (PropertyBlock.lines base following) ⊆ tokens := by
    apply List.Subset.trans _ htokens
    exact List.filterMap_subset _ (List.takeWhile_subset _)
  have hread := isFrom_readProperty base context hblock
  have hkept : (plainBlockProperty base context (PropertyBlock.lines base following)).IsFrom
      context.convention tokens := by
    rw [plainBlockProperty, PropertyBlock.dropStrayItems]
    split
    · exact hread
    · exact Property.isFrom_of_items_eq_none rfl hread.type_isFrom
  rw [property_resolve]
  split
  · exact hkept
  · refine ⟨?_, hkept.items_areFrom⟩
    rintro keyword ⟨⟩

end Reading

theorem Site.isFrom (convention : Convention) (site : Site) {tokens : List String}
    (htokens : typeTokens site.following ⊆ tokens) :
    (site.resolution convention).property.IsFrom convention tokens :=
  isFrom_resolve _ ⟨site.parent, site.name, convention, _⟩ _ _ htokens

end Raml

namespace Schema

open Raml

/-! ### Schemas in a document -/

/-- The schemas in a schema: itself, and those in its properties and its elements. -/
inductive Contains : Json → Json → Prop
  | self (schema : Json) : Contains schema schema
  | property {schema shape part : Json} {properties : List (String × Json)} {name : String}
      (hproperties : schema.member? "properties" = some (.obj properties))
      (hshape : (name, shape) ∈ properties) (hpart : Contains shape part) : Contains schema part
  | items {schema shape part : Json} (hshape : schema.member? "items" = some shape)
      (hpart : Contains shape part) : Contains schema part

/-- A legal value of a type keyword: one type of JSON Schema, or the types of the members of a union
that stands among the tokens, in the order of the members. -/
def IsTypeKeyword (convention : Convention) (tokens : List String) (value : Json) : Prop :=
  (∃ name ∈ jsonTypes, value = .str name) ∨
    ∃ token ∈ tokens, TypeToken.isUnion token = true ∧
      value = .texts (TypeToken.memberTypes convention token) ∧
      TypeToken.memberTypes convention token ≠ [] ∧
      TypeToken.memberTypes convention token ⊆ jsonTypes

def IsWellTyped (convention : Convention) (tokens : List String) (schema : Json) : Prop :=
  ∀ part, Contains schema part → ∀ value, part.member? "type" = some value →
    IsTypeKeyword convention tokens value

variable {convention : Convention} {tokens : List String} {schema : Json} {property : Property}
  {name : String}

theorem isWellTyped_of_members
    (htype : ∀ value, schema.member? "type" = some value → IsTypeKeyword convention tokens value)
    (hproperties : ∀ properties, schema.member? "properties" = some (.obj properties) →
      ∀ entry ∈ properties, IsWellTyped convention tokens entry.2)
    (hitems : ∀ shape, schema.member? "items" = some shape → IsWellTyped convention tokens shape) :
    IsWellTyped convention tokens schema := by
  intro part hpart
  cases hpart with
  | self => exact htype
  | property hmember hshape hpart => exact hproperties _ hmember _ hshape part hpart
  | items hmember hpart => exact hitems _ hmember part hpart

theorem isWellTyped_of_untyped (htype : schema.member? "type" = none)
    (hproperties : schema.member? "properties" = none) (hitems : schema.member? "items" = none) :
    IsWellTyped convention tokens schema := by
  apply isWellTyped_of_members
  · simp [htype]
  · simp [hproperties]
  · simp [hitems]

/-- A schema that has no others in it. -/
theorem isWellTyped_of_leaf {value : Json} (hlegal : IsTypeKeyword convention tokens value)
    (htype : schema.member? "type" = some value)
    (hproperties : schema.member? "properties" = none) (hitems : schema.member? "items" = none) :
    IsWellTyped convention tokens schema := by
  apply isWellTyped_of_members
  · intro shown hshown
    rw [htype] at hshown
    obtain rfl := Option.some_inj.mp hshown
    exact hlegal
  · simp [hproperties]
  · simp [hitems]

theorem isTypeKeyword_str (hname : name ∈ jsonTypes) :
    IsTypeKeyword convention tokens (.str name) :=
  .inl ⟨name, hname, rfl⟩

theorem isWellTyped_referenceJson (reference : String) :
    IsWellTyped convention tokens (referenceJson reference) :=
  isWellTyped_of_untyped rfl rfl rfl

theorem isWellTyped_anything : IsWellTyped convention tokens anything :=
  isWellTyped_of_untyped rfl rfl rfl

/-- A type that does not allow everything is shown as it is. -/
theorem isTypeKeyword_keywordJson {keyword : TypeKeyword}
    (hfrom : keyword.IsFrom convention tokens) (hany : keyword.allows "any" = false) :
    IsTypeKeyword convention tokens (keywordJson (some keyword)) := by
  cases hfrom with
  | single hname =>
    refine isTypeKeyword_str (hname.resolve_left ?_)
    simpa [TypeKeyword.allows] using hany
  | @union token hmem hunion =>
    refine .inr ⟨token, hmem, hunion, rfl, TypeToken.memberTypes_ne_nil convention token, ?_⟩
    intro type htype
    obtain ⟨member, -, rfl⟩ := List.mem_map.mp htype
    refine (TypeToken.memberType_mem convention member).resolve_left fun heq => ?_
    rw [heq] at htype
    simp [TypeKeyword.allows, htype] at hany

theorem isWellTyped_itemsSchema {items : Items} (h : items.AreFrom convention tokens) :
    IsWellTyped convention tokens (itemsSchema items) := by
  rw [itemsSchema]
  -- the null of a missing type could only be shown where there is no reference either
  cases hgiven : given items.reference with
  | some reference => exact isWellTyped_referenceJson reference
  | none =>
    dsimp only
    by_cases hany : allowsAny items.type
    · rw [if_pos hany]
      exact isWellTyped_anything
    · rw [if_neg hany]
      rcases h with ⟨reference, hreference, hne⟩ | ⟨keyword, htype, hfrom⟩
      · simp [given, hreference, hne] at hgiven
      · rw [htype, allowsAny, Option.any_some, Bool.not_eq_true] at hany
        rw [htype]
        exact isWellTyped_of_leaf (isTypeKeyword_keywordJson hfrom hany) rfl rfl rfl

theorem isWellTyped_scalarSchema (hname : name ∈ jsonTypes) (property : Property) (label : String) :
    IsWellTyped convention tokens (scalarSchema label name property) := by
  rw [scalarSchema]
  cases finalFormat label name property <;>
    exact isWellTyped_of_leaf (isTypeKeyword_str hname) rfl rfl rfl

theorem isWellTyped_plainSchema (h : property.IsFrom convention tokens)
    (hschema : plainSchema? name property = some schema) :
    IsWellTyped convention tokens schema := by
  rw [plainSchema?] at hschema
  split at hschema
  · obtain rfl := Option.some_inj.mp hschema
    exact isWellTyped_anything
  case isFalse hany =>
    rw [Bool.or_eq_true, not_or, Bool.not_eq_true] at hany
    cases htype : property.type with
    | none =>
      rw [htype] at hschema
      cases hschema
    | some keyword =>
      have hkeyword := h.type_isFrom keyword htype
      rw [htype, allowsAny, Option.any_some] at hany
      have hlegal := isTypeKeyword_keywordJson hkeyword hany.1
      rw [htype] at hschema
      cases hkeyword with
      | union =>
        obtain rfl := Option.some_inj.mp hschema
        exact isWellTyped_of_leaf hlegal rfl rfl rfl
      | single hname =>
        rw [Option.ite_none_left_eq_some] at hschema
        obtain rfl := Option.some_inj.mp hschema.2
        apply isWellTyped_scalarSchema
        refine hname.resolve_left ?_
        simpa [TypeKeyword.allows] using hany.1

theorem isWellTyped_propertySchema (h : property.IsFrom convention tokens)
    (hschema : propertySchema? name property = some schema) :
    IsWellTyped convention tokens schema := by
  rw [propertySchema?] at hschema
  split at hschema
  · obtain rfl := Option.some_inj.mp hschema
    exact isWellTyped_referenceJson _
  · split at hschema
    case h_1 items hitems =>
      split at hschema
      · obtain rfl := Option.some_inj.mp hschema
        apply isWellTyped_of_members
        · intro value hvalue
          obtain rfl := Option.some_inj.mp hvalue
          exact isTypeKeyword_str (by decide)
        · intro properties hnone
          cases hnone
        · intro shape hshape
          obtain rfl := Option.some_inj.mp hshape
          exact isWellTyped_itemsSchema (h.items_areFrom items hitems)
      · exact isWellTyped_plainSchema h hschema
    case h_2 => exact isWellTyped_plainSchema h hschema

/-! ### Documents -/

theorem isWellTyped_enumSchema (dialect : Json) (type : Declaration) :
    IsWellTyped convention tokens (enumSchema dialect type) := by
  have hstring : IsTypeKeyword convention tokens (.str "string") := isTypeKeyword_str (by decide)
  rw [enumSchema]
  cases type.origin.isSome <;> exact isWellTyped_of_leaf hstring rfl rfl rfl

theorem isWellTyped_document (dialect : Json) {type : Declaration}
    (hproperties : ∀ entry ∈ type.properties, entry.2.IsFrom convention tokens) :
    IsWellTyped convention tokens (document dialect type) := by
  rw [document]
  split
  · exact isWellTyped_enumSchema dialect type
  · have htype : (objectSchema dialect type).member? "type" = some (.str "object") := rfl
    have hmember : (objectSchema dialect type).member? "properties" =
      some (.obj (propertySchemas type)) := rfl
    have hitems : (objectSchema dialect type).member? "items" = none := by
      rw [objectSchema]
      cases type.required <;> rfl
    apply isWellTyped_of_members
    · intro value hvalue
      rw [htype] at hvalue
      obtain rfl := Option.some_inj.mp hvalue
      exact isTypeKeyword_str (by decide)
    · intro properties hvalue entry hentry
      rw [hmember] at hvalue
      obtain rfl := Json.obj.inj (Option.some_inj.mp hvalue)
      obtain ⟨declared, hdeclared, hshape⟩ := List.mem_filterMap.mp hentry
      obtain ⟨schema, hschema, rfl⟩ := Option.map_eq_some_iff.mp hshape
      exact isWellTyped_propertySchema (hproperties declared hdeclared) hschema
    · intro shape hvalue
      rw [hitems] at hvalue
      cases hvalue

theorem properties_areFrom {content stem : String} {source : Option String} {parsed : Parsed}
    (hparse : Source.parse convention content stem source = .ok parsed) {type : Declaration}
    (htype : type ∈ parsed.types) :
    ∀ entry ∈ type.properties,
      entry.2.IsFrom convention (typeTokens (Line.significant 1 (Text.lines content))) := by
  obtain ⟨declared, lifted, hlifts⟩ := Source.exists_liftsIntact hparse
  rw [hlifts.types_eq, List.mem_append] at htype
  intro entry hentry
  rcases htype with hdeclared | hlifted
  · obtain ⟨sited, hsited, rfl⟩ := List.mem_map.mp hdeclared
    rw [(hlifts.sited.isMade sited hsited).properties_eq] at hentry
    rcases Entries.mem_or_mem_of_mem_putAll hentry with hentry | hentry
    · obtain ⟨site, hsite, rfl⟩ := List.mem_map.mp hentry
      obtain ⟨front, hlines⟩ :=
        hlifts.sited.place_eq site (List.mem_flatMap.mpr ⟨sited, hsited, hsite⟩)
      apply site.isFrom
      rw [hlines]
      apply List.filterMap_subset
      exact List.Subset.trans (List.subset_cons_self _ _) (List.subset_append_right _ _)
    · exact absurd hentry List.not_mem_nil
  · rw [(hlifts.isLifted type hlifted).properties_eq] at hentry
    cases hentry

/-- **Type keywords are legal.** Wherever a schema in a document has a type, it is one type of JSON
Schema, or the types of the members of a union that the source writes, one for each member. The
types of members may be the same. What allows any value has no type at all. -/
theorem type_keywords_are_legal {convention : Convention} {content stem : String}
    {source : Option String} {parsed : Parsed}
    (hparse : Source.parse convention content stem source = .ok parsed) {type : Declaration}
    (htype : type ∈ parsed.types) (dialect : Json) {schema value : Json}
    (hschema : Contains (document dialect type) schema)
    (hvalue : schema.member? "type" = some value) :
    IsTypeKeyword convention (typeTokens (Line.significant 1 (Text.lines content))) value :=
  isWellTyped_document dialect (properties_areFrom hparse htype) schema hschema value hvalue

/-- Two unions, one of which has members of the same type. -/
def saleText : String :=
  "#%RAML 1.0 Library\ntypes:\n  Sale:\n    properties:\n" ++
    "      day:\n        type: string | date\n" ++
    "      prices:\n        type: array\n        items:\n          type: number | nil\n"

def sale : Declaration where
  name := "Sale"
  required := ["day", "prices"]
  properties := [
    ("day", { type := some (.union ["string", "string"]), token := some "string | date" }),
    ("prices", {
      type := some (.single "array")
      items := some { type := some (.union ["number", "null"]) }
      token := some "array" })]

theorem exists_parse_saleText :
    ∃ parsed, Source.parse .pascal saleText "sale" none = .ok parsed ∧ parsed.types = [sale] := by
  have htypes :
      (Source.parse .pascal saleText "sale" none).toOption.map (·.types) = some [sale] := by
    decide +kernel
  obtain ⟨parsed, hparse, htypes⟩ := Option.map_eq_some_iff.mp htypes
  exact ⟨parsed, eq_ok_of_toOption_eq_some hparse, htypes⟩

def priceSchema : Json := .obj [("type", .texts ["number", "null"])]

theorem contains_priceSchema : Contains (document defaultDialect sale) priceSchema := by
  have hprices : ("prices", .obj [("type", .str "array"), ("items", priceSchema)]) ∈
      propertySchemas sale := by
    rw [show propertySchemas sale = [("day", .obj [("type", .texts ["string", "string"])]),
      ("prices", .obj [("type", .str "array"), ("items", priceSchema)])] from rfl]
    exact List.mem_cons_of_mem _ List.mem_cons_self
  exact .property rfl hprices (.items rfl (.self _))

theorem type_keywords_are_legal_saleText :
    ∃ parsed, Source.parse .pascal saleText "sale" none = .ok parsed ∧ sale ∈ parsed.types ∧
      Contains (document defaultDialect sale) priceSchema ∧
      IsTypeKeyword .pascal (typeTokens (Line.significant 1 (Text.lines saleText)))
        (.texts ["number", "null"]) := by
  obtain ⟨parsed, hparse, htypes⟩ := exists_parse_saleText
  have hsale : sale ∈ parsed.types := by
    rw [htypes]
    exact List.mem_cons_self
  exact ⟨parsed, hparse, hsale, contains_priceSchema,
    type_keywords_are_legal hparse hsale defaultDialect contains_priceSchema rfl⟩

/-- The members of a union may have the same type, which then stands there twice. -/
theorem repeated_type_saleText :
    ∃ parsed type shape names, Source.parse .pascal saleText "sale" none = .ok parsed ∧
      type ∈ parsed.types ∧ Contains (document defaultDialect type) shape ∧
      shape.member? "type" = some (.texts names) ∧ ¬names.Nodup := by
  obtain ⟨parsed, hparse, htypes⟩ := exists_parse_saleText
  refine ⟨parsed, sale, .obj [("type", .texts ["string", "string"])], ["string", "string"], hparse,
    ?_, ?_, rfl, by decide⟩
  · rw [htypes]
    exact List.mem_cons_self
  · have hday : ("day", .obj [("type", .texts ["string", "string"])]) ∈ propertySchemas sale :=
      List.mem_cons_self
    exact .property rfl hday (.self _)

end Schema

end RamlSchema
