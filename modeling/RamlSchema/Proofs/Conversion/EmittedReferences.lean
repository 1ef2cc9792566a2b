import RamlSchema.Proofs.Conversion.Places
import RamlSchema.Proofs.References.Load
import RamlSchema.Proofs.Schema.Plain

/-!
# The references of an emitted document

The references in the document of a type are those of its properties, in their order. A document
holds a reference nowhere else: its keywords and its names are texts, and a property that is itself
called like a reference has a schema, which is an object and no text. What a reference names is the
file that its type is written to.
-/

namespace RamlSchema

open Json (IsPlain)
open Raml (Declaration Items Property Target TypeKeyword)
open References (declaredName extract extractMembers leadOf ownReference schemaEnding)

namespace Schema

/-! ### Values without a reference -/

@[simp] theorem extract_str (text : String) : extract (.str text) = [] := (rfl)

@[simp] theorem extract_bool (value : Bool) : extract (.bool value) = [] := (rfl)

@[simp] theorem extract_texts (texts : List String) : extract (.texts texts) = [] := by
  rw [Json.texts, extract, References.extractItems_eq_flatMap, List.flatMap_eq_nil_iff]
  intro item hitem
  obtain ⟨text, -, rfl⟩ := List.mem_map.mp hitem
  rfl

@[simp] theorem extract_keywordJson (keyword : Option TypeKeyword) :
    extract (Raml.keywordJson keyword) = [] := by
  unfold Raml.keywordJson
  split
  · rfl
  · rfl
  · exact extract_texts _

/-- The reference of an object is a text, so an object under its key is none. -/
theorem ownReference_eq_nil {members : List (String × Json)}
    (hmembers : ∀ member ∈ members, ∃ inner, member.2 = .obj inner) :
    ownReference members = [] := by
  unfold ownReference
  split
  case h_1 text hget =>
    obtain ⟨inner, hinner⟩ := hmembers _ (Entries.mem_of_get?_eq_some hget)
    cases hinner
  case h_2 => rfl

/-! ### Properties -/

/-- The reference that a property is written with: its own one, or else that of its elements where
it is an array. -/
def writtenReference? (property : Property) : Option String :=
  (given property.reference).or <|
    if property.type = some (.single "array") then
      property.items.bind fun items => given items.reference
    else none

theorem extract_referenceJson (text : String) : extract (referenceJson text) = [text] := by
  simp [referenceJson, extract, extractMembers, ownReference, Entries.get?]

theorem extract_itemsSchema (items : Items) :
    extract (itemsSchema items) = (given items.reference).toList := by
  unfold itemsSchema
  split
  case h_1 reference hreference => rw [hreference, extract_referenceJson, Option.toList_some]
  case h_2 hreference =>
    rw [hreference, Option.toList_none]
    split <;> simp [anything, extract, extractMembers, ownReference, Entries.get?]

theorem extract_scalarSchema (name type : String) (property : Property) :
    extract (scalarSchema name type property) = [] := by
  unfold scalarSchema
  split <;> simp [extract, extractMembers, ownReference, Entries.get?]

theorem extract_plainSchema? {name : String} {property : Property} {schema : Json}
    (hschema : plainSchema? name property = some schema) : extract schema = [] := by
  unfold plainSchema? at hschema
  split at hschema
  · cases hschema
    rfl
  · split at hschema
    · cases hschema
      simp [extract, extractMembers, ownReference, Entries.get?]
    · split at hschema
      · cases hschema
      · cases hschema
        exact extract_scalarSchema ..
    · cases hschema

/-- A property has one reference at most, and one without a schema has none. -/
theorem extract_propertySchema? (name : String) (property : Property) :
    (propertySchema? name property).toList.flatMap extract =
      (writtenReference? property).toList := by
  have hplain : (plainSchema? name property).toList.flatMap extract = [] := by
    rw [List.flatMap_eq_nil_iff]
    intro schema hschema
    exact extract_plainSchema? (Option.mem_toList.mp hschema)
  unfold propertySchema? writtenReference?
  cases given property.reference with
  | some reference => simp [extract_referenceJson]
  | none =>
    cases property.items with
    | none => simpa using hplain
    | some items =>
      by_cases harray : property.type = some (.single "array")
      · simp [harray, extract, extractMembers, ownReference, Entries.get?, extract_itemsSchema]
      · simpa [harray] using hplain

theorem exists_obj_of_propertySchema? {name : String} {property : Property} {schema : Json}
    (hschema : propertySchema? name property = some schema) : ∃ members, schema = .obj members := by
  unfold propertySchema? plainSchema? at hschema
  grind [referenceJson, anything, scalarSchema]

/-! ### Types -/

def writtenReferences (type : Declaration) : List String :=
  if type.isEnum then [] else type.properties.filterMap (writtenReference? ·.2)

theorem extractMembers_propertySchemas (type : Declaration) :
    extractMembers (propertySchemas type) =
      type.properties.filterMap (writtenReference? ·.2) := by
  rw [References.extractMembers_eq_flatMap, propertySchemas, List.filterMap_eq_flatMap_toList,
    List.flatMap_assoc, List.filterMap_eq_flatMap_toList]
  refine List.flatMap_congr fun entry _ => ?_
  obtain ⟨name, property⟩ := entry
  rw [← extract_propertySchema? name property]
  dsimp only
  cases propertySchema? name property <;> simp

theorem extract_propertiesObject (type : Declaration) :
    extract (.obj (propertySchemas type)) =
      type.properties.filterMap (writtenReference? ·.2) := by
  have hown : ownReference (propertySchemas type) = [] := by
    refine ownReference_eq_nil fun member hmember => ?_
    obtain ⟨⟨name, property⟩, -, hmap⟩ := List.mem_filterMap.mp hmember
    obtain ⟨schema, hschema, rfl⟩ := Option.map_eq_some_iff.mp hmap
    exact exists_obj_of_propertySchema? hschema
  rw [extract, hown, List.nil_append, extractMembers_propertySchemas]

theorem extract_enumSchema (dialect : Json) (type : Declaration) :
    extract (enumSchema dialect type) = extract dialect := by
  unfold enumSchema
  split <;> rw [extract] <;> simp [extractMembers, ownReference, Entries.get?]

theorem extract_objectSchema (dialect : Json) (type : Declaration) :
    extract (objectSchema dialect type) =
      extract dialect ++ extract (.obj (propertySchemas type)) := by
  unfold objectSchema
  split <;> rw [extract] <;> simp [extractMembers, ownReference, Entries.get?]

/-- **The references in a document are those of the dialect and of the properties.** -/
theorem extract_document (dialect : Json) (type : Declaration) :
    extract (document dialect type) = extract dialect ++ writtenReferences type := by
  unfold document writtenReferences
  split
  · rw [extract_enumSchema, List.append_nil]
  · rw [extract_objectSchema, extract_propertiesObject]

end Schema

namespace Conversion

open Files (Path)
open Report (Kind)
open Schema (document writtenReferences)

variable {convention : Convention} {kind : Kind} {name : String}

/-! ### The file that a reference names -/

def referredDirectory : Kind → List String
  | .enum => directoryParts .enum
  | .object => []

theorem reference_eq_append :
    (targetOf kind name).reference convention =
      "./" ++ (leadOf (referredDirectory kind) ++
        (stemOf convention kind name ++ schemaEnding)) := by
  rw [← fileName_eq_stemOf_append, ← String.append_assoc]
  cases kind with
  | enum =>
    have hlead : Target.enumDirectory = "./" ++ leadOf (referredDirectory .enum) := by
      decide
    rw [← hlead]
    rfl
  | object => rfl

theorem notMem_stemOf {d : Char} (hname : d ∉ (convention.apply name).toList)
    (hending : d ∉ "Enum".toList) : d ∉ (stemOf convention kind name).toList := by
  cases kind with
  | enum =>
    rw [stemOf, String.toList_append, List.mem_append, not_or]
    exact ⟨hname, hending⟩
  | object => exact hname

theorem declaredName_reference (hslash : '/' ∉ name.toList) (hhash : '#' ∉ name.toList) :
    declaredName ((targetOf kind name).reference convention) = stemOf convention kind name := by
  have hnoHash : '#' ∉ (convention.apply name).toList :=
    Naming.notMem_apply convention (by decide) (by decide) (by decide) (by decide) hhash
  rw [reference_eq_append]
  refine References.declaredName_append_ending
    (notMem_stemOf (Naming.slash_notMem_apply convention hslash) (by decide)) ?_
    (notMem_stemOf hnoHash (by decide))
  cases kind <;> decide

/-- **What is emitted is what is extracted.** The references in the document of a type are those
that its properties are written with, in their order, also after the document was written and read
again; and the reference to a type with a plain name declares the name of the file that the type is
written to. -/
theorem emitted_references_are_extracted :
    (∀ (dialect : String) (type : Declaration),
      extract (document (.str dialect) type) = writtenReferences type ∧
        (type.properties.NodupKeys →
          (References.documentOfBytes?
              (Text.Utf8.encode (document (.str dialect) type).print)).map extract =
            some (writtenReferences type))) ∧
    ∀ (convention : Convention) (output : Path) (kind : Kind) (name : String),
      '/' ∉ name.toList → '#' ∉ name.toList →
        Text.dropSuffix? (outputPath convention output kind name).name schemaEnding =
          some (declaredName ((targetOf kind name).reference convention)) := by
  constructor
  · intro dialect type
    have hextract : extract (document (.str dialect) type) = writtenReferences type := by
      rw [Schema.extract_document, Schema.extract_str, List.nil_append]
    refine ⟨hextract, fun htype => ?_⟩
    have hplain : IsPlain (document (.str dialect) type) :=
      Schema.isPlain_document (Json.isPlain_str dialect) htype
    have hread : References.documentOfBytes?
        (Text.Utf8.encode (document (.str dialect) type).print) =
          some (document (.str dialect) type) := by
      rw [References.documentOfBytes?, Text.Utf8.decode_eq_ok_iff.mpr rfl]
      exact Json.read?_print hplain
    rw [hread, Option.map_some, hextract]
  · intro convention output kind name hslash hhash
    rw [name_outputPath output hslash, declaredName_reference hslash hhash, Text.dropSuffix?_append]

/-- The elements of an array refer to a type of their own. -/
def wheels : Property where
  type := some (.single "array")
  items := some { type := none, reference := some "./Wheel.schema.json" }

/-- A type with a property that is called like a reference. -/
def ownedCar : Declaration where
  name := "car"
  properties :=
    [("$ref", { type := none, reference := some "./Owner.schema.json" }), ("name", {}),
      ("wheels", wheels)]

theorem emitted_references_are_extracted_car :
    extract (document (.str "draft") ownedCar) =
        ["./Owner.schema.json", "./Wheel.schema.json"] ∧
      (References.documentOfBytes?
          (Text.Utf8.encode (document (.str "draft") ownedCar).print)).map extract =
        some ["./Owner.schema.json", "./Wheel.schema.json"] ∧
      Text.dropSuffix? (outputPath .pascal ⟨"", ["out"]⟩ .object "owner").name schemaEnding =
        some (declaredName "./Owner.schema.json") := by
  obtain ⟨hdocuments, hnames⟩ := emitted_references_are_extracted
  obtain ⟨hextract, hread⟩ := hdocuments "draft" ownedCar
  have hkeys : ownedCar.properties.NodupKeys := by
    rw [Entries.NodupKeys]
    decide
  have hreference : (targetOf .object "owner").reference .pascal = "./Owner.schema.json" := by
    decide +kernel
  have hname := hnames .pascal ⟨"", ["out"]⟩ .object "owner" (by decide) (by decide)
  rw [hreference] at hname
  exact ⟨hextract, hread hkeys, hname⟩

end Conversion

end RamlSchema
