import RamlSchema.Proofs.Raml.LiftedEnums
import RamlSchema.Proofs.Raml.Objects
import RamlSchema.Proofs.Raml.TypeFacets

/-!
# Documents of objects

An object allows no properties but the declared ones, so a required name that is not among its
properties would leave no value valid. That cannot happen: a property is left out of the document
only if it has no shape, and every property has one. Its type goes missing where a reference takes
its place, and in no other way. The invariant over the lines of a block is that there is a reference
or a type, and a later facet that takes one away brings the other.
-/

namespace RamlSchema

namespace Raml

/-! ### Shapes -/

/-- A property that refers to something, or has a type. -/
def Property.HasShape (property : Property) : Prop :=
  (∃ reference, property.reference = some reference ∧ reference ≠ "") ∨
    ∃ keyword, property.type = some keyword ∧ keyword ≠ .single ""

variable {context : PropertyContext} {property : Property}

theorem hasShape_addFacet (h : property.HasShape) (facet : BlockFacet) :
    (property.addFacet context facet).HasShape := by
  cases facet with
  | description text => exact h
  | items items => exact h
  | enum => exact .inr ⟨.single "string", rfl, by decide⟩
  | type token =>
    by_cases hunion : TypeToken.isUnion token = true
    · exact .inr ⟨_, if_pos hunion, nofun⟩
    · cases htarget : TypeToken.reference? context.convention token with
      | some reference =>
        obtain ⟨target, -, rfl⟩ := Option.map_eq_some_iff.mp htarget
        exact .inl ⟨_, (if_neg hunion).trans htarget,
          reference_ne_empty context.convention target⟩
      | none =>
        obtain ⟨type, hjson, hne⟩ := TypeToken.exists_jsonType?_of_reference? htarget
        have htype : tokenType context.convention token = some (.single type) := by
          rw [tokenType, if_neg hunion, htarget, hjson]
          rfl
        exact .inr ⟨.single type, htype, fun heq => hne (TypeKeyword.single.inj heq)⟩

theorem hasShape_readProperty (base : Int) (context : PropertyContext) (block : List Line) :
    (readProperty base context block).HasShape := by
  have hstart : ({} : Property).HasShape := .inr ⟨.single "string", rfl, by decide⟩
  exact List.foldlRecOn _ _ hstart fun property h facet _ => hasShape_addFacet h facet

/-- Whatever facets a block has, and in whatever order, the property has a shape. -/
theorem hasShape_resolve (base : Int) (context : PropertyContext) (line : Int)
    (declared : Option String) (following : List Line) :
    (PropertyBlock.resolve base context line declared following).property.HasShape := by
  rw [property_resolve]
  split
  · rw [plainBlockProperty, Property.HasShape, type_dropStrayItems, reference_dropStrayItems]
    exact hasShape_readProperty base context _
  · exact .inl ⟨_, rfl, reference_ne_empty context.convention _⟩

theorem Site.hasShape (convention : Convention) (site : Site) :
    (site.resolution convention).property.HasShape :=
  hasShape_resolve ..

end Raml

namespace Schema

open Raml

theorem exists_plainSchema? {property : Property} {keyword : TypeKeyword}
    (htype : property.type = some keyword) (hne : keyword ≠ .single "") (name : String) :
    ∃ schema, plainSchema? name property = some schema := by
  rw [plainSchema?, htype]
  split
  · exact ⟨_, rfl⟩
  · cases keyword with
    | union names => exact ⟨_, rfl⟩
    | single type =>
      have hempty : type.isEmpty = false := by
        rw [String.isEmpty_eq_false_iff]
        intro heq
        exact hne (congrArg TypeKeyword.single heq)
      exact ⟨scalarSchema name type property, if_neg (by simp [hempty])⟩

theorem exists_propertySchema? {property : Property} (h : property.HasShape) (name : String) :
    ∃ schema, propertySchema? name property = some schema := by
  rcases h with ⟨reference, hreference, hne⟩ | ⟨keyword, htype, hne⟩
  · exact ⟨_, propertySchema?_of_reference hreference hne⟩
  · rw [propertySchema?]
    split
    · exact ⟨_, rfl⟩
    · split
      · split
        · exact ⟨_, rfl⟩
        · exact exists_plainSchema? htype hne name
      · exact exists_plainSchema? htype hne name

/-! ### Members -/

/-- No property is left out of the document if each has a shape. -/
theorem propertySchemas_lookups {type : Declaration}
    (hshapes : ∀ entry ∈ type.properties, entry.2.HasShape) :
    Entries.keys (propertySchemas type) = type.properties.keys ∧
      ∀ name, Entries.get? (propertySchemas type) name =
        (type.properties.get? name).bind (propertySchema? name) := by
  rw [propertySchemas]
  generalize type.properties = properties at hshapes ⊢
  induction properties with
  | nil => exact ⟨rfl, fun name => rfl⟩
  | cons entry properties ih =>
    obtain ⟨key, property⟩ := entry
    obtain ⟨hproperty, hlater⟩ := List.forall_mem_cons.mp hshapes
    obtain ⟨schema, hschema⟩ := exists_propertySchema? hproperty key
    obtain ⟨hkeys, hlookup⟩ := ih hlater
    rw [List.filterMap_cons_some (b := (key, schema)) (by simp [hschema])]
    refine ⟨congrArg (key :: ·) hkeys, ?_⟩
    intro name
    by_cases hname : key = name
    · subst hname
      simp [Entries.get?, hschema]
    · simpa [Entries.get?, hname] using hlookup name

/-- An object with properties of the given schemas and no others. The names it requires are among
these properties, and each stands once. -/
structure IsClosedObject (document : Json) (shapes : Entries String Json) (required : List String) :
    Prop where
  closed : document.member? "additionalProperties" = some (.bool false)
  properties_eq : document.member? "properties" = some (.obj shapes)
  required_eq : document.member? "required" =
    if required = [] then none else some (.texts required)
  required_nodup : required.Nodup
  required_subset : required ⊆ shapes.keys

/-- The schemas and the required names are those of the sites: a name stands where its first site
is, and has the schema of its last one. -/
structure FollowSites (convention : Convention) (sites : List Site) (shapes : Entries String Json)
    (required : List String) : Prop where
  keys_eq : shapes.keys = Site.names sites
  shape_eq : ∀ before site after, sites = before ++ site :: after →
    (∀ later ∈ after, later.name ≠ site.name) →
      ∃ shape, propertySchema? site.name (site.resolution convention).property = some shape ∧
        shapes.get? site.name = some shape
  required_eq : required = Site.requiredNames sites
  mem_required_iff : ∀ name, name ∈ required ↔
    ∃ site ∈ sites, site.name = name ∧ site.isOptional = false
  unmarked : ∀ name ∈ required, Text.endsWith name "?" = false

variable {convention : Convention} {name : String} {sites : List Site} {type : Declaration}

theorem hasShape_of_isWhole (h : SitedType.IsWhole convention name ⟨type, sites⟩) :
    ∀ entry ∈ type.properties, entry.2.HasShape := by
  intro entry hentry
  rw [h.properties_eq] at hentry
  rcases Entries.mem_or_mem_of_mem_putAll hentry with hentry | hentry
  · obtain ⟨site, -, rfl⟩ := List.mem_map.mp hentry
    exact site.hasShape convention
  · exact absurd hentry List.not_mem_nil

theorem keys_of_isWhole (h : SitedType.IsWhole convention name ⟨type, sites⟩) :
    type.properties.keys = Site.names sites := by
  rw [h.properties_eq, Entries.keys_ofList, List.map_map]
  rfl

theorem followSites_of_isWhole (h : SitedType.IsWhole convention name ⟨type, sites⟩) :
    FollowSites convention sites (propertySchemas type) type.required := by
  obtain ⟨hkeys, hlookup⟩ := propertySchemas_lookups (hasShape_of_isWhole h)
  have hrequired : type.required = Site.requiredNames sites := h.required_eq
  refine ⟨hkeys.trans (keys_of_isWhole h), ?_, hrequired, ?_, ?_⟩
  · intro before site after hsites hlast
    obtain ⟨shape, hshape⟩ := exists_propertySchema? (site.hasShape convention) site.name
    have hget := h.get?_properties hsites hlast
    refine ⟨shape, hshape, ?_⟩
    rw [hlookup, show type.properties.get? site.name = _ from hget, Option.bind_some, hshape]
  · intro name
    rw [hrequired]
    exact Site.mem_requiredNames_iff
  · intro name hname
    rw [hrequired] at hname
    exact Site.endsWith_of_mem_requiredNames hname

theorem isClosedObject_of_isWhole (h : SitedType.IsWhole convention name ⟨type, sites⟩)
    (hobject : type.isEnum = false) (dialect : Json) :
    IsClosedObject (document dialect type) (propertySchemas type) type.required := by
  have hrequired : type.required = Site.requiredNames sites := h.required_eq
  have hdocument : document dialect type = objectSchema dialect type := by
    rw [document, hobject, if_neg Bool.false_ne_true]
  rw [hdocument, objectSchema]
  refine ⟨rfl, rfl, ?_, ?_, ?_⟩
  · cases type.required <;> rfl
  · rw [hrequired]
    exact nodup_eraseDups _
  · intro name hname
    rw [hrequired] at hname
    obtain ⟨site, hsite, hsiteName, -⟩ := Site.mem_requiredNames_iff.mp hname
    rw [(followSites_of_isWhole h).keys_eq]
    exact Site.mem_names_iff.mpr ⟨site, hsite, hsiteName⟩

/-- **Emitted objects are closed.** The types of a file that are no enums are the objects which the
file declares, in order, and the document of each allows just the declared properties: every name
has a schema, and what is required is a property. -/
theorem object_documents_are_closed {convention : Convention} {content stem : String}
    {source : Option String} {parsed : Parsed}
    (hparse : Source.parse convention content stem source = .ok parsed) :
    List.Forall₂ (fun object type => type.name = object.name ∧
        ∀ dialect, ∃ shapes required, IsClosedObject (document dialect type) shapes required ∧
          FollowSites convention object.sites shapes required)
      (Source.objects content stem) (parsed.types.filter (!·.isEnum)) := by
  have hobjects : ∀ type ∈ parsed.types.filter (!·.isEnum), type.isEnum = false := by
    intro type htype
    simpa using (List.mem_filter.mp htype).2
  have hwhole := (List.forall₂_and_left _ _).mpr ⟨hobjects, (Source.forall₂_objects hparse).flip⟩
  refine (hwhole.imp ?_).flip
  rintro type object ⟨hobject, hwhole⟩
  refine ⟨hwhole.name_eq, fun dialect => ⟨propertySchemas type, type.required, ?_, ?_⟩⟩
  · exact isClosedObject_of_isWhole hwhole hobject dialect
  · exact followSites_of_isWhole hwhole

/-- A property whose shape is a reference, declared again as a required text. -/
def carText : String :=
  "#%RAML 1.0 Library\ntypes:\n  Car:\n    properties:\n" ++
    "      paint?:\n        type: common.Paint\n      doors:\n      paint:\n"

set_option maxRecDepth 3000 in
theorem object_documents_are_closed_carText :
    ∃ parsed, Source.parse .pascal carText "car" none = .ok parsed ∧
      (Source.objects carText "car").map (fun object =>
          (object.name, Site.names object.sites, Site.requiredNames object.sites)) =
        [("Car", ["paint", "doors"], ["doors", "paint"])] ∧
      List.Forall₂ (fun object type => type.name = object.name ∧
          ∀ dialect, ∃ shapes required, IsClosedObject (document dialect type) shapes required ∧
            FollowSites .pascal object.sites shapes required)
        (Source.objects carText "car") (parsed.types.filter (!·.isEnum)) := by
  obtain ⟨parsed, hparse⟩ := (Source.exists_parse_iff .pascal carText "car" none).mpr (by decide)
  exact ⟨parsed, hparse, rfl, object_documents_are_closed hparse⟩

end Schema

end RamlSchema
