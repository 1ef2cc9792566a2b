import RamlSchema.Proofs.Json.RoundTrip
import RamlSchema.Proofs.Raml.Sites
import RamlSchema.Schema.Scaffold

/-!
# Emitted documents are plain

Schemas hold texts, lists and objects, and no key stands twice in any of their objects: most have
keys of their own, and the properties of a type keep one place for a name.
-/

namespace RamlSchema

/-! ### Plain values -/

namespace Json

@[simp] theorem isPlain_str (s : String) : IsPlain (.str s) := .str s

@[simp] theorem isPlain_bool (value : Bool) : IsPlain (.bool value) := .bool value

@[simp] theorem isPlain_int (n : Int) : IsPlain (int n) := .int n

@[simp] theorem isPlain_arr {items : List Json} :
    IsPlain (.arr items) ↔ ∀ item ∈ items, IsPlain item :=
  ⟨fun h => by cases h; assumption, .arr⟩

@[simp] theorem isPlain_obj {members : Entries String Json} :
    IsPlain (.obj members) ↔
      members.keys.Nodup ∧ ∀ member ∈ members, IsPlain member.2 :=
  ⟨fun h => by cases h; constructor <;> assumption, fun h => .obj h.1 h.2⟩

@[simp] theorem isPlain_texts (items : List String) : IsPlain (texts items) := by
  rw [texts, isPlain_arr]
  intro item hitem
  obtain ⟨s, -, rfl⟩ := List.mem_map.mp hitem
  exact .str s

end Json

namespace Schema

open Json (IsPlain)
open Raml (Declaration Items Property TypeKeyword)

/-! ### Properties -/

@[simp] theorem isPlain_keywordJson (keyword : Option TypeKeyword) :
    IsPlain (Raml.keywordJson keyword) := by
  unfold Raml.keywordJson
  split
  · exact .null
  · exact .str _
  · exact Json.isPlain_texts _

@[simp] theorem isPlain_referenceJson (reference : String) : IsPlain (referenceJson reference) := by
  simp [referenceJson, Entries.keys]

@[simp] theorem isPlain_anything : IsPlain anything := by simp [anything, Entries.keys]

@[simp] theorem isPlain_itemsSchema (items : Items) : IsPlain (itemsSchema items) := by
  unfold itemsSchema
  split
  · exact isPlain_referenceJson _
  · split <;> simp [Entries.keys]

theorem isPlain_scalarSchema (name type : String) (property : Property) :
    IsPlain (scalarSchema name type property) := by
  unfold scalarSchema
  split <;> simp [Entries.keys]

theorem isPlain_plainSchema? {name : String} {property : Property} {schema : Json}
    (hschema : plainSchema? name property = some schema) : IsPlain schema := by
  unfold plainSchema? at hschema
  split at hschema
  · cases hschema
    exact isPlain_anything
  · split at hschema
    · cases hschema
      simp [Entries.keys]
    · split at hschema
      · cases hschema
      · cases hschema
        exact isPlain_scalarSchema ..
    · cases hschema

theorem isPlain_propertySchema? {name : String} {property : Property} {schema : Json}
    (hschema : propertySchema? name property = some schema) : IsPlain schema := by
  unfold propertySchema? at hschema
  split at hschema
  · cases hschema
    exact isPlain_referenceJson _
  · split at hschema
    · split at hschema
      · cases hschema
        simp [Entries.keys]
      · exact isPlain_plainSchema? hschema
    · exact isPlain_plainSchema? hschema

/-! ### Types -/

/-- Properties without a shape are left out, and the others keep their names. -/
theorem keys_propertySchemas_sublist (type : Declaration) :
    List.Sublist (Entries.keys (propertySchemas type)) type.properties.keys := by
  rw [propertySchemas]
  induction type.properties with
  | nil => exact List.nil_sublist _
  | cons entry properties ih =>
    obtain ⟨name, property⟩ := entry
    cases hschema : propertySchema? name property with
    | none =>
      rw [List.filterMap_cons_none (by simp [hschema])]
      exact ih.cons name
    | some schema =>
      rw [List.filterMap_cons_some (b := (name, schema)) (by simp [hschema])]
      exact ih.cons_cons name

theorem isPlain_of_mem_propertySchemas {type : Declaration} {member : String × Json}
    (hmember : member ∈ propertySchemas type) : IsPlain member.2 := by
  obtain ⟨⟨name, property⟩, -, hmap⟩ := List.mem_filterMap.mp hmember
  obtain ⟨schema, hschema, rfl⟩ := Option.map_eq_some_iff.mp hmap
  exact isPlain_propertySchema? hschema

theorem isPlain_enumSchema {dialect : Json} (hdialect : IsPlain dialect) (type : Declaration) :
    IsPlain (enumSchema dialect type) := by
  unfold enumSchema
  split <;> simp [Entries.keys, hdialect]

theorem isPlain_objectSchema {dialect : Json} (hdialect : IsPlain dialect) {type : Declaration}
    (htype : type.properties.NodupKeys) : IsPlain (objectSchema dialect type) := by
  have hproperties : IsPlain (.obj (propertySchemas type)) :=
    .obj (htype.sublist (keys_propertySchemas_sublist type))
      fun _ => isPlain_of_mem_propertySchemas
  unfold objectSchema
  split
  all_goals
    refine .obj (by simp [Entries.keys]) ?_
    simp [-Json.isPlain_obj, hdialect, hproperties]

theorem isPlain_document {dialect : Json} (hdialect : IsPlain dialect) {type : Declaration}
    (htype : type.properties.NodupKeys) : IsPlain (document dialect type) := by
  unfold document
  split
  · exact isPlain_enumSchema hdialect type
  · exact isPlain_objectSchema hdialect htype

theorem document_eq_cons (dialect : Json) (type : Declaration) :
    ∃ members, document dialect type = .obj (("$schema", dialect) :: members) := by
  unfold document
  split
  · exact ⟨_, rfl⟩
  · exact ⟨_, rfl⟩

/-! ### Scaffold -/

theorem isPlain_closedObject {dialect : Json} (hdialect : IsPlain dialect) (title : String)
    {properties : Entries String Json} (hproperties : IsPlain (.obj properties))
    (required : List String) :
    IsPlain (closedObject dialect title properties required) := by
  refine .obj (by simp [Entries.keys]) ?_
  simp [-Json.isPlain_obj, hdialect, hproperties]

theorem isPlain_metadataDocument {dialect : Json} (hdialect : IsPlain dialect) :
    IsPlain (metadataDocument dialect) :=
  isPlain_closedObject hdialect _ (by simp [Entries.keys, typed]) _

theorem isPlain_messageDocument {dialect : Json} (hdialect : IsPlain dialect) :
    IsPlain (messageDocument dialect) :=
  isPlain_closedObject hdialect _ (by simp [Entries.keys, typed]) _

theorem isPlain_aggregatorDocument {dialect : Json} (hdialect : IsPlain dialect)
    (rename : String → String) (names : List String) :
    IsPlain (aggregatorDocument dialect rename names) := by
  refine isPlain_closedObject hdialect _ (.obj (Entries.nodupKeys_ofList _) ?_) _
  intro member hmember
  rcases Entries.mem_or_mem_of_mem_putAll hmember with hmember | hmember
  · obtain ⟨name, -, rfl⟩ := List.mem_map.mp hmember
    exact isPlain_referenceJson _
  · exact absurd hmember List.not_mem_nil

end Schema

end RamlSchema
