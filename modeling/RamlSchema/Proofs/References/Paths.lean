import Mathlib.Data.List.Nodup
import RamlSchema.Proofs.References.Index
import RamlSchema.Proofs.Text.Trim

/-!
# What the path of a schema leads to

A reference that is spelled as a path is not looked up as a path first. It goes by three names in
turn, of which the first is the bare name of the file, and so it leads to the first schema that has
the name, in whatever directory that lies. The path itself decides only where the file has no name
but its ending.
-/

namespace RamlSchema.References

variable {schemas : List LoadedSchema} {schema : LoadedSchema} {reference : Reference}
  {text name : String}

/-! ### Names of a schema -/

/-- The name of a file without the ending of a schema, or else without that of a document. -/
def fileStem (path : String) : String :=
  let base := Text.afterLast path '/'
  (Text.dropSuffix? base schemaEnding).getD (Text.stripSuffix base jsonEnding)

theorem mem_keys_iff :
    name ∈ schema.keys ↔ name ≠ "" ∧
      (name = schema.name ∨ name = schema.relativePath ∨
        name = Text.stripSuffix (Text.afterLast schema.relativePath '/') jsonEnding ∨
        name = Text.stripSuffix schema.name ".schema" ∨
        name = Text.stripSuffix schema.relativePath schemaEnding ∨
        name = Text.stripSuffix (Text.afterLast schema.relativePath '/') schemaEnding) := by
  rw [LoadedSchema.keys, List.mem_eraseDups, List.mem_filter, Bool.not_eq_true', and_comm]
  simp

theorem fileStem_mem_keys (hstem : fileStem schema.relativePath ≠ "") :
    fileStem schema.relativePath ∈ schema.keys := by
  rw [mem_keys_iff]
  refine ⟨hstem, ?_⟩
  cases hends : Text.dropSuffix? (Text.afterLast schema.relativePath '/') schemaEnding with
  | none => simp [fileStem, hends]
  | some stem => simp [fileStem, Text.stripSuffix, hends]

theorem path_mem_keys (hpath : schema.relativePath ≠ "")
    (hending : schema.relativePath ≠ schemaEnding) :
    Text.stripSuffix schema.relativePath schemaEnding ∈ schema.keys := by
  rw [mem_keys_iff]
  refine ⟨?_, by simp⟩
  intro hempty
  cases hends : Text.dropSuffix? schema.relativePath schemaEnding with
  | none => exact hpath (by rwa [Text.stripSuffix, hends] at hempty)
  | some rest =>
    have hrest : rest = "" := by rwa [Text.stripSuffix, hends] at hempty
    rw [Text.dropSuffix?_eq_some_iff, hrest] at hends
    exact hending hends

/-! ### Names in a reference -/

theorem filePart_eq_self (hfragment : '#' ∉ text.toList) : filePart text = text := by
  have hmark : "#" = .singleton '#' := by decide
  rw [filePart, hmark, Text.cut?_eq_none_of_notMem hfragment]

/-- The declared name of a reference without a fragment is the bare name of the file. -/
theorem declaredName_eq_fileStem (hfragment : '#' ∉ text.toList) :
    declaredName text = fileStem text := by
  rw [declaredName, filePart_eq_self hfragment]
  split
  case isTrue hempty =>
    rw [String.isEmpty_iff.mp hempty]
    decide
  case isFalse => rfl

theorem fileStem_append (path : String) : fileStem ("./" ++ path) = fileStem path := by
  have hlead : "./" ++ path = .ofList (['.'] ++ '/' :: path.toList) := by
    simp [← String.toList_inj]
  rw [fileStem, hlead, Text.afterLast_lead, fileStem]

theorem Reference.name_ofText (text : String) : (ofText text).name = declaredName text := rfl

def Reference.names (reference : Reference) : List String :=
  [reference.name, baseName reference.text, strippedReference reference.text]

/-- The first schema with a name. -/
def firstWith? (schemas : List LoadedSchema) (name : String) : Option LoadedSchema :=
  schemas.find? fun schema => schema.keys.contains name

/-- The first name of a reference that any schema has. -/
def Reference.foundName? (reference : Reference) (schemas : List LoadedSchema) : Option String :=
  reference.names.find? fun name => (firstWith? schemas name).isSome

theorem isSome_firstWith?_iff :
    (firstWith? schemas name).isSome = true ↔ ∃ schema ∈ schemas, name ∈ schema.keys := by
  rw [firstWith?, List.find?_isSome]
  simp

theorem isSome_firstWith? (hschema : schema ∈ schemas) (hname : name ∈ schema.keys) :
    (firstWith? schemas name).isSome = true :=
  isSome_firstWith?_iff.mpr ⟨schema, hschema, hname⟩

theorem firstWith?_empty (schemas : List LoadedSchema) : firstWith? schemas "" = none := by
  rw [firstWith?, List.find?_eq_none]
  intro schema _ hkey
  rw [List.contains_iff_mem, mem_keys_iff] at hkey
  exact hkey.1 rfl

namespace Index

/-- A search goes to the first schema with the first name that there is. -/
theorem search_of_foundName? (hname : reference.foundName? schemas = some name) :
    (ofSchemas schemas).search reference = (firstWith? schemas name).map (·.id) := by
  rw [search, get?_ofSchemas, get?_ofSchemas, get?_ofSchemas]
  simp only [Reference.foundName?, Reference.names, List.find?_cons, List.find?_nil] at hname
  change ((firstWith? schemas _).map _).or
    (((firstWith? schemas _).map _).or (((firstWith? schemas _).map _).or _)) = _
  -- The names before the one that is found belong to no schema.
  cases hdeclared : firstWith? schemas reference.name with
  | some first =>
    rw [hdeclared] at hname
    obtain rfl := Option.some.inj hname
    rw [hdeclared]
    rfl
  | none =>
    cases hbase : firstWith? schemas (baseName reference.text) with
    | some first =>
      rw [hdeclared, hbase] at hname
      obtain rfl := Option.some.inj hname
      rw [hbase]
      rfl
    | none =>
      cases hstripped : firstWith? schemas (strippedReference reference.text) with
      | some first =>
        rw [hdeclared, hbase, hstripped] at hname
        obtain rfl := Option.some.inj hname
        rw [hstripped]
        rfl
      | none =>
        rw [hdeclared, hbase, hstripped] at hname
        cases hname

theorem search_eq_some_iff (hids : (schemas.map (·.id)).Nodup) (hschema : schema ∈ schemas)
    (hname : reference.foundName? schemas = some name) :
    (ofSchemas schemas).search reference = some schema.id ↔
      firstWith? schemas name = some schema := by
  rw [search_of_foundName? hname, Option.map_eq_some_iff]
  constructor
  · rintro ⟨first, hfirst, hid⟩
    have hmem : first ∈ schemas := List.mem_of_find?_eq_some hfirst
    rw [hfirst, List.inj_on_of_nodup_map hids hmem hschema hid]
  · intro hfirst
    exact ⟨schema, hfirst, rfl⟩

end Index

/-! ### References spelled as paths -/

theorem foundName?_of_name (hschema : schema ∈ schemas) (hname : reference.name ∈ schema.keys) :
    reference.foundName? schemas = some reference.name := by
  rw [Reference.foundName?, Reference.names, List.find?_cons, isSome_firstWith? hschema hname]

theorem strippedReference_eq {path : String} (htext : text = path ∨ text = "./" ++ path)
    (hlead : text = path → Text.startsWith path "./" = false) :
    strippedReference text = Text.stripSuffix path schemaEnding := by
  rw [strippedReference]
  rcases htext with rfl | rfl
  · have hdrop : Text.dropPrefix? text "./" = none := by
      rw [Option.eq_none_iff_forall_ne_some]
      intro rest hrest
      have hstarts := Text.startsWith_append "./" rest
      rw [← Text.dropPrefix?_eq_some_iff.mp hrest, hlead rfl] at hstarts
      cases hstarts
    rw [hdrop, Option.getD_none]
  · rw [Text.dropPrefix?_append, Option.getD_some]

theorem search_bare_ending (schemas : List LoadedSchema)
    (htext : text = schemaEnding ∨ text = "./" ++ schemaEnding) :
    (Index.ofSchemas schemas).search (.ofText text) = none := by
  have hnames : (Reference.ofText text).names = ["", "", ""] := by
    rcases htext with rfl | rfl <;> decide
  obtain ⟨hname, hbase, hstripped⟩ : (Reference.ofText text).name = "" ∧
      baseName (Reference.ofText text).text = "" ∧
      strippedReference (Reference.ofText text).text = "" := by
    simpa [Reference.names] using hnames
  have hnone : (Index.ofSchemas schemas).get? "" = none := by
    rw [Index.get?_ofSchemas]
    exact congrArg (Option.map _) (firstWith?_empty schemas)
  rw [Index.search, hname, hbase, hstripped, hnone]
  simp [Index.findIgnoringCase]

/-- **The path of a schema leads to the first schema that has its name.** Of the three names that a
reference is looked up by, the first that any schema has decides: the search ends at the schema of
the path exactly if that one is the first in the list to have the name. The name is that of the file
without its ending, wherever there is one. A file without a name is found by its path, unless the
path is read as another one; and the bare ending of a schema is never found. -/
theorem search_path_iff_first (hids : (schemas.map (·.id)).Nodup) (hschema : schema ∈ schemas)
    (hfragment : '#' ∉ schema.relativePath.toList)
    (htext : text = schema.relativePath ∨ text = "./" ++ schema.relativePath) :
    let reference := Reference.ofText text
    let found? := (Index.ofSchemas schemas).search reference
    (∀ name, reference.foundName? schemas = some name →
      (found? = some schema.id ↔ firstWith? schemas name = some schema)) ∧
    (fileStem schema.relativePath ≠ "" →
      fileStem schema.relativePath ∈ schema.keys ∧
        reference.foundName? schemas = some (fileStem schema.relativePath)) ∧
    (schema.relativePath ≠ "" → schema.relativePath ≠ schemaEnding →
      (text = schema.relativePath → Text.startsWith schema.relativePath "./" = false) →
      (reference.foundName? schemas).isSome = true) ∧
    (schema.relativePath = schemaEnding → found? = none) := by
  have hdeclared : (Reference.ofText text).name = fileStem schema.relativePath := by
    rw [Reference.name_ofText]
    rcases htext with rfl | rfl
    · exact declaredName_eq_fileStem hfragment
    · rw [declaredName_eq_fileStem (by simpa using hfragment), fileStem_append]
  refine ⟨fun name hname => Index.search_eq_some_iff hids hschema hname, ?_, ?_, ?_⟩
  · intro hstem
    have hkey := fileStem_mem_keys hstem
    refine ⟨hkey, ?_⟩
    rw [← hdeclared] at hkey ⊢
    exact foundName?_of_name hschema hkey
  · intro hpath hending hlead
    have hkey := path_mem_keys hpath hending
    rw [← strippedReference_eq htext hlead] at hkey
    rw [Reference.foundName?, List.find?_isSome]
    exact ⟨_, by simp [Reference.names, Reference.ofText], isSome_firstWith? hschema hkey⟩
  · intro hpath
    rw [hpath] at htext
    exact search_bare_ending schemas htext

/-! ### Two files with one name -/

def rivalRoot : Files.Path := ⟨"", ["schemas"]⟩

/-- Two schemas of the same name in two directories. -/
def rivalSchemas : List LoadedSchema :=
  [.ofDocument rivalRoot ["a", "Foo.schema.json"] (.obj []),
    .ofDocument rivalRoot ["b", "Foo.schema.json"] (.obj [])]

/-- A schema in a file that has no name but its ending. -/
def namelessSchema : LoadedSchema := .ofDocument rivalRoot [".schema.json"] (.obj [])

/-- The path of the first of two schemas leads to it. -/
theorem search_path_iff_first_rivals :
    (Index.ofSchemas rivalSchemas).search (.ofText "./a/Foo.schema.json") =
      some (schemaId "schemas/a/Foo.schema.json") := by
  have hids : (rivalSchemas.map (·.id)).Nodup := by decide +kernel
  have hschema : .ofDocument rivalRoot ["a", "Foo.schema.json"] (.obj []) ∈ rivalSchemas :=
    List.mem_cons_self
  have htext : "./a/Foo.schema.json" = "./" ++ (LoadedSchema.ofDocument rivalRoot
      ["a", "Foo.schema.json"] (.obj [])).relativePath := by decide +kernel
  obtain ⟨hiff, hname, -⟩ := search_path_iff_first hids hschema (by decide +kernel) (.inr htext)
  exact (hiff _ (hname (by decide +kernel)).2).mpr (by decide +kernel)

/-- The path of the second leads to the first as well, and a bare ending leads nowhere. -/
theorem search_path_misses :
    (rivalSchemas.map (·.id)).Nodup ∧ (rivalSchemas.map (·.relativePath)).Nodup ∧
    (∃ schema ∈ rivalSchemas, schema.relativePath = "b/Foo.schema.json" ∧
      '#' ∉ schema.relativePath.toList ∧
      ∀ text ∈ ["b/Foo.schema.json", "./b/Foo.schema.json"],
        (Index.ofSchemas rivalSchemas).search (.ofText text) =
          some (schemaId "schemas/a/Foo.schema.json") ∧
        (Index.ofSchemas rivalSchemas).search (.ofText text) ≠ some schema.id) ∧
    namelessSchema.relativePath = ".schema.json" ∧
    (Index.ofSchemas [namelessSchema]).search (.ofText ".schema.json") = none := by
  decide +kernel

end RamlSchema.References
