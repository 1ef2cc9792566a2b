import RamlSchema.Proofs.Entries
import RamlSchema.References.Index

/-!
# What a search finds

Every name leads to the first schema that has it (`Index.get?_ofSchemas`), so a search can only end
at a schema of the list. Whether it finds anything depends on the look-ups alone; the order of the
names decides only between schemas that the last, case-blind step could both take.
-/

namespace RamlSchema.References

open Entries (SameLookups NodupKeys)

namespace Index

/-! ### The index of a list -/

/-- The names of one schema are entered under its identifier unless they are taken. -/
theorem get?_foldl_putNew (names : List String) (id : String) (index : Index) (key : String) :
    (names.foldl (fun (index : Index) name => index.putNew name id) index).get? key =
      (index.get? key).or (if key ∈ names then some id else none) := by
  induction names generalizing index with
  | nil => simp
  | cons name names ih =>
    rw [List.foldl_cons, ih, Entries.get?_putNew, Option.or_assoc]
    congr 1
    by_cases hname : name = key
    · simp [hname]
    · simp [hname, Ne.symm hname]

theorem get?_foldl_add (schemas : List LoadedSchema) (index : Index) (key : String) :
    (schemas.foldl add index).get? key =
      (index.get? key).or
        ((schemas.find? fun schema => schema.keys.contains key).map (·.id)) := by
  induction schemas generalizing index with
  | nil => simp
  | cons schema schemas ih =>
    rw [List.foldl_cons, ih, add, get?_foldl_putNew, Option.or_assoc, List.find?_cons]
    congr 1
    by_cases hkey : key ∈ schema.keys
    · simp [hkey]
    · simp [hkey]

/-- A name leads to the first schema in the list that has it. -/
theorem get?_ofSchemas (schemas : List LoadedSchema) (key : String) :
    (ofSchemas schemas).get? key =
      (schemas.find? fun schema => schema.keys.contains key).map (·.id) := by
  rw [ofSchemas, get?_foldl_add]
  rfl

theorem nodupKeys_foldl_add (schemas : List LoadedSchema) {index : Index}
    (hindex : NodupKeys index) : NodupKeys (schemas.foldl add index) := by
  induction schemas generalizing index with
  | nil => exact hindex
  | cons schema schemas ih =>
    refine ih ?_
    unfold add
    induction schema.keys generalizing index with
    | nil => exact hindex
    | cons name names ihNames => exact ihNames (hindex.putNew name schema.id)

theorem nodupKeys_ofSchemas (schemas : List LoadedSchema) : NodupKeys (ofSchemas schemas) :=
  nodupKeys_foldl_add schemas Entries.nodupKeys_nil

/-! ### The search -/

/-- The steps of a search that look up one name, in which letter case counts. -/
def searchExactly (index : Index) (reference : Reference) : Option String :=
  (index.get? reference.name).or <|
    (index.get? (baseName reference.text)).or (index.get? (strippedReference reference.text))

def searchIgnoringCase (index : Index) (reference : Reference) : Option String :=
  index.findIgnoringCase [reference.name, baseName reference.text]

theorem search_eq (index : Index) (reference : Reference) :
    index.search reference =
      (index.searchExactly reference).or (index.searchIgnoringCase reference) := by
  simp [search, searchExactly, searchIgnoringCase, Option.or_assoc]

theorem searchExactly_congr {m n : Index} (h : SameLookups m n) (reference : Reference) :
    m.searchExactly reference = n.searchExactly reference := by
  simp only [searchExactly, h reference.name, h (baseName reference.text),
    h (strippedReference reference.text)]

/-- The last step finds something in every order of the names or in none. -/
theorem isSome_findIgnoringCase_congr {m n : Index} (h : m.Perm n) (candidates : List String) :
    (m.findIgnoringCase candidates).isSome = (n.findIgnoringCase candidates).isSome := by
  rw [Bool.eq_iff_iff]
  simp only [findIgnoringCase, Option.isSome_map, List.find?_isSome, h.mem_iff]

/-- Whether a reference can be resolved depends on the look-ups alone. -/
theorem isSome_search_congr {m n : Index} (hm : NodupKeys m) (hn : NodupKeys n)
    (h : SameLookups m n) (reference : Reference) :
    (m.search reference).isSome = (n.search reference).isSome := by
  rw [search_eq, search_eq, Option.isSome_or, Option.isSome_or, searchExactly_congr h,
    searchIgnoringCase, searchIgnoringCase, isSome_findIgnoringCase_congr (h.perm hm hn)]

theorem exists_get?_of_search_eq_some {index : Index} (hindex : NodupKeys index)
    {reference : Reference} {target : String} (hsearch : index.search reference = some target) :
    ∃ key, index.get? key = some target := by
  simp only [search, Option.or_eq_some_iff, findIgnoringCase, Option.map_eq_some_iff] at hsearch
  rcases hsearch with hname | ⟨-, hbase | ⟨-, hstripped | ⟨-, ⟨⟨key, id⟩, hfind, rfl⟩⟩⟩⟩
  · exact ⟨_, hname⟩
  · exact ⟨_, hbase⟩
  · exact ⟨_, hstripped⟩
  · exact ⟨key, hindex.get?_eq_some_iff.mpr (List.mem_of_find?_eq_some hfind)⟩

theorem exists_schema_of_get?_ofSchemas {schemas : List LoadedSchema} {key target : String}
    (hget : (ofSchemas schemas).get? key = some target) :
    ∃ schema ∈ schemas, schema.id = target := by
  rw [get?_ofSchemas, Option.map_eq_some_iff] at hget
  obtain ⟨schema, hfind, hid⟩ := hget
  exact ⟨schema, List.mem_of_find?_eq_some hfind, hid⟩

theorem exists_schema_of_search_eq_some {schemas : List LoadedSchema} {reference : Reference}
    {target : String} (hsearch : (ofSchemas schemas).search reference = some target) :
    ∃ schema ∈ schemas, schema.id = target := by
  obtain ⟨key, hkey⟩ := exists_get?_of_search_eq_some (nodupKeys_ofSchemas schemas) hsearch
  exact exists_schema_of_get?_ofSchemas hkey

end Index

end RamlSchema.References
