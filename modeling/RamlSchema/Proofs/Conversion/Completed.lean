import RamlSchema.Proofs.Conversion.Written

/-!
# Completed runs

A run that completes has read its source files one by one, registered the schema of every type that
they declare, and written what was registered. The last type of a kind and name is the one whose
schema is registered.
-/

namespace RamlSchema

def Report.Run.names (run : Report.Run) : Report.Kind → List String
  | .enum => run.enumNames
  | .object => run.objectNames

namespace Conversion

open Files (FileTree Path)
open Raml (Declaration)
open Report (Kind Run)

/-! ### Types and schemas -/

theorem kindOf_eq_enum_iff {type : Declaration} : kindOf type = .enum ↔ type.isEnum = true := by
  cases hisEnum : type.isEnum <;> simp [kindOf, hisEnum]

theorem kindOf_eq_object_iff {type : Declaration} :
    kindOf type = .object ↔ type.isEnum = false := by
  cases hisEnum : type.isEnum <;> simp [kindOf, hisEnum]

theorem parse_of_readSource {convention : Convention} {tree : FileTree} {path : Path}
    {file : SourceFile} (hread : readSource convention tree path = .ok file) :
    Raml.Source.parse convention file.content path.stem (some path.text) = .ok file.parsed := by
  obtain ⟨bytes, -, hread⟩ := bind_eq_ok_iff.mp hread
  obtain ⟨content, -, hread⟩ := bind_eq_ok_iff.mp hread
  obtain ⟨parsed, hparse, hread⟩ := bind_eq_ok_iff.mp hread
  obtain rfl := Except.ok.inj hread
  exact mapError_eq_ok_iff.mp hparse

/-- The types of a source file, unless it cannot be read. -/
def typesIn (convention : Convention) (tree : FileTree) (source : Path) : List Declaration :=
  match readSource convention tree source with
  | .error _ => []
  | .ok file => file.parsed.types

/-- The types of all source files in the order in which they are read. -/
def typesRead (convention : Convention) (tree : FileTree) (sources : List Path) :
    List Declaration :=
  sources.flatMap (typesIn convention tree)

theorem mem_typesRead_iff {convention : Convention} {tree : FileTree} {sources : List Path}
    {type : Declaration} :
    type ∈ typesRead convention tree sources ↔
      ∃ path ∈ sources, ∃ file, readSource convention tree path = .ok file ∧
        type ∈ file.parsed.types := by
  rw [typesRead, List.mem_flatMap]
  refine exists_congr fun path => and_congr_right fun _ => ?_
  rw [typesIn]
  cases readSource convention tree path with
  | error fault => exact iff_of_false List.not_mem_nil (by simp)
  | ok file => simp

def lastType? (kind : Kind) (name : String) (types : List Declaration) : Option Declaration :=
  types.reverse.find? fun type => kindOf type = kind ∧ type.name = name

def schemasOf (dialect : Json) (kind : Kind) (types : List Declaration) : List (String × Json) :=
  (types.filter (kindOf · = kind)).map fun type => (type.name, Schema.document dialect type)

theorem schemasOf_append (dialect : Json) (kind : Kind) (types others : List Declaration) :
    schemasOf dialect kind (types ++ others) =
      schemasOf dialect kind types ++ schemasOf dialect kind others := by
  simp [schemasOf]

def Registry.schemas (registry : Registry) : Kind → Entries String Json
  | .enum => registry.enums
  | .object => registry.objects

theorem Registry.schemas_register (registry : Registry) (kind other : Kind) (name : String)
    (schema : Json) (file : String) :
    (registry.register kind name schema file).schemas other =
      if kind = other then (registry.schemas other).put name schema
      else registry.schemas other := by
  cases other <;> rfl

def recordOf (dialect : Json) (type : Declaration) : Record :=
  ⟨type, Schema.document dialect type⟩

theorem schemas_registerAll (registry : Registry) (file : String) (dialect : Json)
    (types : List Declaration) (kind : Kind) :
    (registerAll registry file (types.map (recordOf dialect))).schemas kind =
      (registry.schemas kind).putAll (schemasOf dialect kind types) := by
  induction types generalizing registry with
  | nil => rfl
  | cons type types ih =>
    rw [List.map_cons]
    change (registerAll (registry.register _ _ _ _) file _).schemas kind = _
    rw [ih, Registry.schemas_register]
    by_cases hkind : kindOf type = kind
    · simp [schemasOf, recordOf, hkind, Entries.putAll]
    · simp [schemasOf, recordOf, hkind]

theorem schemas_add_convertSource (settings : Settings) (tree : FileTree) (output source : Path)
    (gathered : Gathered) (kind : Kind) :
    (gathered.add (convertSource settings tree output source)).registry.schemas kind =
      (gathered.registry.schemas kind).putAll
        (schemasOf settings.dialect kind (typesIn settings.convention tree source)) := by
  unfold convertSource typesIn
  cases readSource settings.convention tree source with
  | error fault => rfl
  | ok file => exact schemas_registerAll _ _ _ _ _

theorem schemas_foldl (settings : Settings) (tree : FileTree) (output : Path)
    (sources : List Path) (gathered : Gathered) (kind : Kind) :
    ((sources.map (convertSource settings tree output)).foldl Gathered.add
        gathered).registry.schemas kind =
      (gathered.registry.schemas kind).putAll
        (schemasOf settings.dialect kind (typesRead settings.convention tree sources)) := by
  induction sources generalizing gathered with
  | nil => rfl
  | cons source sources ih =>
    have htypes : typesRead settings.convention tree (source :: sources) =
        typesIn settings.convention tree source ++ typesRead settings.convention tree sources :=
      List.flatMap_cons
    rw [List.map_cons, List.foldl_cons, ih, schemas_add_convertSource, htypes, schemasOf_append,
      Entries.putAll_append]

/-- The schemas of one kind that some types leave registered. -/
def registered (dialect : Json) (kind : Kind) (types : List Declaration) : Entries String Json :=
  Entries.ofList (schemasOf dialect kind types)

theorem nodupKeys_registered (dialect : Json) (kind : Kind) (types : List Declaration) :
    (registered dialect kind types).NodupKeys := Entries.nodupKeys_ofList _

theorem get?_registered (dialect : Json) (kind : Kind) (types : List Declaration) (name : String) :
    (registered dialect kind types).get? name =
      (lastType? kind name types).map (Schema.document dialect) := by
  rw [registered, Entries.get?_ofList, schemasOf, ← List.map_reverse, ← List.filter_reverse,
    List.find?_map, List.find?_filter, lastType?, Option.map_map]
  congr 2
  funext type
  simp

theorem mem_registered_iff {dialect : Json} {kind : Kind} {types : List Declaration}
    {name : String} {schema : Json} :
    (name, schema) ∈ registered dialect kind types ↔
      ∃ type, lastType? kind name types = some type ∧ schema = Schema.document dialect type := by
  rw [← (nodupKeys_registered dialect kind types).get?_eq_some_iff, get?_registered,
    Option.map_eq_some_iff]
  simp only [eq_comm]

theorem of_lastType?_eq_some {kind : Kind} {name : String} {types : List Declaration}
    {type : Declaration} (htype : lastType? kind name types = some type) :
    type ∈ types ∧ kindOf type = kind ∧ type.name = name := by
  refine ⟨List.mem_reverse.mp (List.mem_of_find?_eq_some htype), ?_⟩
  simpa using List.find?_some htype

theorem exists_lastType?_of_mem {types : List Declaration} {type : Declaration}
    (htype : type ∈ types) :
    ∃ last, lastType? (kindOf type) type.name types = some last := by
  rw [← Option.isSome_iff_exists, lastType?, List.find?_isSome]
  exact ⟨type, List.mem_reverse.mpr htype, by simp⟩

theorem mem_schemaFiles_iff {convention : Convention} {output : Path} {dialect : Json} {kind : Kind}
    {types : List Declaration} {file : Path × Json} :
    file ∈ schemaFiles convention output kind (registered dialect kind types) ↔
      ∃ name type, lastType? kind name types = some type ∧
        file = (outputPath convention output kind name, Schema.document dialect type) := by
  rw [schemaFiles, List.mem_map]
  constructor
  · rintro ⟨⟨name, schema⟩, hmem, rfl⟩
    obtain ⟨type, htype, rfl⟩ := mem_registered_iff.mp hmem
    exact ⟨name, type, htype, rfl⟩
  · rintro ⟨name, type, htype, rfl⟩
    exact ⟨(name, Schema.document dialect type), mem_registered_iff.mpr ⟨type, htype, rfl⟩, rfl⟩

/-- The schemas that are registered once all source files have been read. -/
theorem schemas_gather (settings : Settings) (tree : FileTree) (output : Path)
    (sources : List Path) (kind : Kind) :
    (gather (sources.map (convertSource settings tree output))).registry.schemas kind =
      registered settings.dialect kind (typesRead settings.convention tree sources) := by
  rw [gather, schemas_foldl]
  cases kind <;> rfl

/-- The files that some types are written to, with the documents in them. -/
def filesOf (settings : Settings) (output : Path) (types : List Declaration) : List (Path × Json) :=
  schemaFiles settings.convention output .enum (registered settings.dialect .enum types) ++
    schemaFiles settings.convention output .object (registered settings.dialect .object types) ++
    if settings.scaffold.isTruthy then
      scaffoldFiles settings output (registered settings.dialect .object types).keys
    else []

theorem outputFiles_gather (settings : Settings) (tree : FileTree) (output : Path)
    (sources : List Path) :
    outputFiles settings output
        (gather (sources.map (convertSource settings tree output))).registry =
      filesOf settings output (typesRead settings.convention tree sources) := by
  have hregistry := schemas_gather settings tree output sources
  rw [filesOf, ← hregistry .enum, ← hregistry .object]
  rfl

/-! ### Successful runs -/

/-- The steps of a conversion that change files. -/
def writeRun (output : Path) (writer : Writer) (documents : List (Path × Json)) (run : Run) :
    Action Run := do
  createDirectories output
  writeAll writer documents
  pure run

theorem writeRun_eq_bind (output : Path) (writer : Writer) (documents : List (Path × Json))
    (run : Run) :
    writeRun output writer documents run =
      (createDirectories output >>= fun _ => writeAll writer documents) >>= fun _ => pure run :=
  (bind_assoc (createDirectories output) _ _).symm

section Steps

variable {settings used : Settings} {input : Path} {tree : FileTree} {sources : List Path}

theorem convertDirectory_of_inUse_eq_error {fault : SettingFault}
    (hused : settings.inUse = .error fault) (stamp : String) (input output : Path)
    (tree : FileTree) :
    convertDirectory settings stamp input output tree = .error (.setting fault) tree := by
  rw [convertDirectory, hused]
  rfl

theorem convertDirectory_of_discover_eq_error {fault : Fault} (hused : settings.inUse = .ok used)
    (hsources : discover used tree input = .error fault) (stamp : String) (output : Path) :
    convertDirectory settings stamp input output tree = .error fault tree := by
  rw [convertDirectory, hused]
  change (MonadExcept.ofExcept (discover used tree input) >>= _ : Action Run) tree = _
  rw [hsources]
  rfl

theorem convertDirectory_of_checkWorkers_eq_error {fault : SettingFault}
    (hused : settings.inUse = .ok used) (hsources : discover used tree input = .ok sources)
    (hworkers : used.checkWorkers = .error fault) (stamp : String) (output : Path) :
    convertDirectory settings stamp input output tree = .error (.setting fault) tree := by
  rw [convertDirectory, hused]
  change (MonadExcept.ofExcept (discover used tree input) >>= _ : Action Run) tree = _
  rw [hsources, hworkers]
  rfl

/-- With its settings and source files known, a conversion is its steps that change files. -/
theorem convertDirectory_eq_writeRun (hused : settings.inUse = .ok used)
    (hsources : discover used tree input = .ok sources) (hworkers : used.checkWorkers = .ok ())
    (stamp : String) (output : Path) :
    convertDirectory settings stamp input output tree =
      writeRun output ⟨used.output, stamp⟩
        (filesOf used output (typesRead used.convention tree sources))
        ((gather (sources.map (convertSource used tree output))).run output sources.length)
        tree := by
  have hinUse : ofSetting settings.inUse = .ok used := mapError_eq_ok_iff.mpr hused
  have hchecked : ofSetting used.checkWorkers = .ok () := mapError_eq_ok_iff.mpr hworkers
  rw [convertDirectory,
    Files.Action.bind_of_eq_ok (Files.Action.ofExcept_eq_ok_iff.mpr ⟨hinUse, rfl⟩),
    Files.Action.get_bind,
    Files.Action.bind_of_eq_ok (Files.Action.ofExcept_eq_ok_iff.mpr ⟨hsources, rfl⟩),
    Files.Action.bind_of_eq_ok (Files.Action.ofExcept_eq_ok_iff.mpr ⟨hchecked, rfl⟩)]
  simp only [outputFiles_gather]
  rfl

/-- A conversion stops before it changes anything, or it knows its settings and source files and
does the steps that change files. -/
theorem convertDirectory_cases (settings : Settings) (stamp : String) (input output : Path)
    (tree : FileTree) :
    (∃ fault, convertDirectory settings stamp input output tree = .error fault tree) ∨
      ∃ used sources, settings.inUse = .ok used ∧ discover used tree input = .ok sources ∧
        convertDirectory settings stamp input output tree =
          writeRun output ⟨used.output, stamp⟩
            (filesOf used output (typesRead used.convention tree sources))
            ((gather (sources.map (convertSource used tree output))).run output sources.length)
            tree := by
  cases hused : settings.inUse with
  | error fault => exact .inl ⟨_, convertDirectory_of_inUse_eq_error hused stamp input output tree⟩
  | ok used =>
    cases hsources : discover used tree input with
    | error fault =>
      exact .inl ⟨_, convertDirectory_of_discover_eq_error hused hsources stamp output⟩
    | ok sources =>
      cases hworkers : used.checkWorkers with
      | error fault =>
        exact .inl
          ⟨_, convertDirectory_of_checkWorkers_eq_error hused hsources hworkers stamp output⟩
      | ok _ =>
        exact .inr ⟨used, sources, rfl, hsources,
          convertDirectory_eq_writeRun hused hsources hworkers stamp output⟩

end Steps

/-- What a completed run has done, with the settings in force and the source files found. -/
structure Completed (settings : Settings) (input output : Path) (tree tree' : FileTree) (run : Run)
    (used : Settings) (sources : List Path) : Prop where
  inUse : settings.inUse = .ok used
  discovered : discover used tree input = .ok sources
  names_eq : ∀ kind, run.names kind =
    (registered used.dialect kind (typesRead used.convention tree sources)).keys
  allWritten : AllWritten tree tree'
    (filesOf used output (typesRead used.convention tree sources))

theorem createDirectories_eq_ok {output : Path} {tree tree' : FileTree} (htree : tree.WellFormed)
    (hrun : createDirectories output tree = .ok () tree') :
    tree'.MadeFrom tree ∧ tree'.WellFormed ∧ tree'.isDirectory output = true ∧
      ∀ kind, tree'.isDirectory (output.child (directoryOf kind)) = true := by
  obtain ⟨_, between, hfirst, hrun⟩ := Files.Action.bind_eq_ok_iff.mp hrun
  obtain ⟨_, between', hsecond, hthird⟩ := Files.Action.bind_eq_ok_iff.mp hrun
  obtain ⟨hensured, -⟩ := Files.ensureDirectories_eq_ok htree (onFiles_eq_ok_iff.mp hfirst)
  obtain ⟨hensured', -⟩ :=
    Files.ensureDirectories_eq_ok hensured.wellFormed (onFiles_eq_ok_iff.mp hsecond)
  obtain ⟨hensured'', -⟩ :=
    Files.ensureDirectories_eq_ok hensured'.wellFormed (onFiles_eq_ok_iff.mp hthird)
  have hlater := hensured''.made.trans hensured'.made
  refine ⟨hlater.trans hensured.made, hensured''.wellFormed,
    hlater.keptIn.isDirectory hensured.directory, fun kind => ?_⟩
  cases kind with
  | enum => exact hensured''.made.keptIn.isDirectory hensured'.directory
  | object => exact hensured''.directory

/-- A conversion that succeeds has done all of its steps, and reports what it has gathered. -/
theorem convertDirectory_eq_ok {settings : Settings} {stamp : String} {input output : Path}
    {tree tree' : FileTree} {run : Run}
    (hrun : convertDirectory settings stamp input output tree = .ok run tree') :
    ∃ used sources, settings.inUse = .ok used ∧ discover used tree input = .ok sources ∧
      run = (gather (sources.map (convertSource used tree output))).run output sources.length ∧
      ∃ between, createDirectories output tree = .ok () between ∧
        writeAll ⟨used.output, stamp⟩
          (filesOf used output (typesRead used.convention tree sources)) between =
            .ok () tree' := by
  rcases convertDirectory_cases settings stamp input output tree with ⟨fault, hstopped⟩ |
    ⟨used, sources, hused, hsources, heq⟩
  · rw [hstopped] at hrun
    cases hrun
  · rw [heq] at hrun
    obtain ⟨_, between, hdirectories, hrun⟩ := Files.Action.bind_eq_ok_iff.mp hrun
    obtain ⟨_, _, hwrite, hrun⟩ := Files.Action.bind_eq_ok_iff.mp hrun
    obtain ⟨rfl, rfl⟩ := Files.Action.pure_eq_ok_iff.mp hrun
    exact ⟨used, sources, hused, hsources, rfl, between, hdirectories, hwrite⟩

theorem exists_completed {settings : Settings} {stamp : String} {input output : Path}
    {tree tree' : FileTree} (htree : tree.WellFormed) {run : Run}
    (hrun : convertDirectory settings stamp input output tree = .ok run tree') :
    ∃ used sources, Completed settings input output tree tree' run used sources := by
  obtain ⟨used, sources, hused, hsources, rfl, between, hdirectories, hwrite⟩ :=
    convertDirectory_eq_ok hrun
  obtain ⟨hmade, hbetween, -⟩ := createDirectories_eq_ok htree hdirectories
  have hregistry := schemas_gather used tree output sources
  refine ⟨used, sources, hused, hsources, fun kind => ?_,
    (allWritten_of_writeAll hbetween hwrite).of_made hmade⟩
  rw [← hregistry kind]
  cases kind <;> rfl

/-- The same with the settings and the source files that are known to be in use. -/
theorem completed_of_run {settings used : Settings} {stamp : String} {input output : Path}
    {tree tree' : FileTree} {run : Run} {sources : List Path} (htree : tree.WellFormed)
    (hused : settings.inUse = .ok used) (hsources : discover used tree input = .ok sources)
    (hrun : convertDirectory settings stamp input output tree = .ok run tree') :
    Completed settings input output tree tree' run used sources := by
  obtain ⟨used', sources', h⟩ := exists_completed htree hrun
  obtain rfl := Except.ok.inj (hused.symm.trans h.inUse)
  obtain rfl := Except.ok.inj (hsources.symm.trans h.discovered)
  exact h

end Conversion

end RamlSchema
