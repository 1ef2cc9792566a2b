import RamlSchema.Conversion.SingleFile
import RamlSchema.Proofs.Conversion.Validation

/-!
# One document for a file

All types of a file go into one document, which is the only type's own document or defines all types
under their names. Names are the keys there, so a type without a name has no place, and of several
types of one name the last stays. What is defined is settled by that: the different names in the
order of the file, each with the last of its types.
-/

namespace RamlSchema.Conversion

open Files (FileTree Path)
open Json (IsPlain)
open Raml (Declaration)

variable {dialect document : Json} {stem : String} {types : List Declaration}

/-! ### Definitions -/

def givenNames (types : List Declaration) : List String :=
  (types.map (·.name)).filter (!·.isEmpty)

/-- Definitions that hold every type by its name, unless a later one has the same. -/
structure DefinesTypes (dialect : Json) (types : List Declaration) (entries : Entries String Json) :
    Prop where
  keys_eq : entries.keys = (givenNames types).eraseDups
  last : ∀ before type after, types = before ++ type :: after → type.name ≠ "" →
    (∀ later ∈ after, later.name ≠ type.name) →
    entries.get? type.name = some (Schema.document dialect type)
  all : (∀ type ∈ types, type.name ≠ "") → (types.map (·.name)).Nodup →
    entries = types.map fun type => (type.name, Schema.document dialect type)

theorem get?_definitions {after : List Declaration} {type : Declaration} (hname : type.name ≠ "")
    (hlast : ∀ later ∈ after, later.name ≠ type.name) (before : List Declaration) :
    (definitions dialect (before ++ type :: after)).get? type.name =
      some (Schema.document dialect type) := by
  have hgiven : (type :: after).filter (fun type => !type.name.isEmpty) =
      type :: after.filter fun type => !type.name.isEmpty :=
    List.filter_cons_of_pos (by simpa using hname)
  rw [definitions, List.filter_append, hgiven, List.map_append, List.map_cons]
  apply Entries.get?_ofList_append_cons
  rw [List.forall_mem_map]
  exact fun later hlater => hlast later (List.mem_of_mem_filter hlater)

theorem definesTypes_definitions (dialect : Json) (types : List Declaration) :
    DefinesTypes dialect types (definitions dialect types) where
  keys_eq := by
    rw [definitions, Entries.keys_ofList, List.map_map, givenNames, List.filter_map]
    rfl
  last := by
    rintro before type after rfl hname hlast
    exact get?_definitions hname hlast before
  all := by
    intro hnames hnodup
    have hgiven : types.filter (fun type => !type.name.isEmpty) = types := by
      rw [List.filter_eq_self]
      intro type htype
      simpa using hnames type htype
    rw [definitions, hgiven, Entries.ofList_eq_self]
    rwa [Entries.NodupKeys, Entries.keys, List.map_map]

/-! ### Documents -/

/-- The document of one type, or one that defines several. -/
inductive KeepsTypes (dialect : Json) : List Declaration → Json → Prop
  | single (type : Declaration) : KeepsTypes dialect [type] (Schema.document dialect type)
  | several {types : List Declaration} {document : Json} {entries : Entries String Json}
      (hseveral : 2 ≤ types.length) (hmember : document.member? "definitions" = some (.obj entries))
      (hdefines : DefinesTypes dialect types entries) : KeepsTypes dialect types document

theorem keepsTypes_of_documentOf? (hdocument : documentOf? dialect stem types = some document) :
    KeepsTypes dialect types document := by
  unfold documentOf? at hdocument
  split at hdocument
  case h_1 => cases hdocument
  case h_2 type =>
    obtain rfl := Option.some_inj.mp hdocument
    exact .single type
  case h_3 hnone hsingle =>
    obtain rfl := Option.some_inj.mp hdocument
    refine .several ?_ rfl (definesTypes_definitions dialect types)
    match types with
    | [] => exact absurd rfl hnone
    | [type] => exact absurd rfl (hsingle type)
    | _ :: _ :: _ => simp

/-! ### Validation -/

theorem isPlain_definitions {dialect : Json} (hdialect : IsPlain dialect)
    (htypes : ∀ type ∈ types, type.properties.NodupKeys) :
    IsPlain (.obj (definitions dialect types)) := by
  refine .obj (Entries.nodupKeys_ofList _) fun member hmember => ?_
  have hmember := (Entries.mem_or_mem_of_mem_putAll hmember).resolve_right List.not_mem_nil
  obtain ⟨type, htype, rfl⟩ := List.mem_map.mp hmember
  exact Schema.isPlain_document hdialect (htypes type (List.mem_of_mem_filter htype))

/-- The document of a file that was read passes its validation. -/
theorem documentFault?_documentOf? {convention : Convention} {dialect : String} {tree : FileTree}
    {source : Path} {file : SourceFile} (hread : readSource convention tree source = .ok file)
    (hdocument : documentOf? (.str dialect) stem file.parsed.types = some document) :
    documentFault? document = none := by
  have hparse := parse_of_readSource hread
  unfold documentOf? at hdocument
  split at hdocument
  case h_1 => cases hdocument
  case h_2 type htypes =>
    obtain rfl := Option.some_inj.mp hdocument
    have htype : type ∈ file.parsed.types := by rw [htypes]; exact List.mem_singleton_self type
    exact documentFault?_document hparse htype dialect
  case h_3 =>
    obtain rfl := Option.some_inj.mp hdocument
    have hdefinitions : IsPlain (.obj (definitions (.str dialect) file.parsed.types)) :=
      isPlain_definitions (.str dialect) fun type => nodupKeys_of_mem_types hparse
    have hempty : IsPlain (.obj []) := Schema.isPlain_anything
    refine (documentFault?_eq_none_iff (.obj (by simp [Entries.keys]) ?_)).mpr
      (not_lacksDialect_cons _ _)
    simp [-Json.isPlain_obj, hdefinitions, hempty]

/-! ### Runs -/

section Run

variable {settings used : Settings} {stamp : String} {source directory : Path}
  {tree tree' : FileTree} {file : SourceFile} {result : SingleResult}

def documentPath (convention : Convention) (source directory : Path) : Path :=
  directory.child (convention.apply source.stem ++ ".json")

theorem failed_ne_ok {input output error : String} (hsuccess : result.error = none) :
    (pure { input, output, error := some error } : Action SingleResult) tree ≠
      .ok result tree' := by
  intro h
  obtain ⟨rfl, -⟩ := Files.Action.pure_eq_ok_iff.mp h
  cases hsuccess

/-- A conversion succeeds exactly if it reads types and writes their document. -/
theorem convertFile_success_iff :
    convertFile settings stamp source directory tree = .ok result tree' ∧ result.error = none ↔
      ∃ used file document count, settings.inUse = .ok used ∧
        readSource used.convention tree source = .ok file ∧
        documentOf? used.dialect source.stem file.parsed.types = some document ∧
        (Writer.mk used.output stamp).write (documentPath used.convention source directory)
          document true tree = .ok count tree' ∧
        result =
          { input := source.text
            output := (documentPath used.convention source directory).text
            document := some document } := by
  unfold convertFile
  constructor
  -- Every way to fail, the handler's too, puts an error into the result.
  · rintro ⟨hrun, hsuccess⟩
    obtain ⟨used, between, hinUse, hrun⟩ := Files.Action.bind_eq_ok_iff.mp hrun
    obtain ⟨hused, rfl⟩ := Files.Action.ofExcept_eq_ok_iff.mp hinUse
    rw [Files.Action.get_bind] at hrun
    cases hread : readSource used.convention tree source with
    | error fault =>
      rw [hread] at hrun
      exact absurd hrun (failed_ne_ok hsuccess)
    | ok file =>
      rw [hread] at hrun
      dsimp only at hrun
      cases hdocument : documentOf? used.dialect source.stem file.parsed.types with
      | none =>
        rw [hdocument] at hrun
        exact absurd hrun (failed_ne_ok hsuccess)
      | some document =>
        rw [hdocument] at hrun
        dsimp only at hrun
        rw [Files.Action.tryCatch_eq_ok_iff fun _ _ => failed_ne_ok hsuccess] at hrun
        obtain ⟨count, between, hwrite, hrun⟩ := Files.Action.bind_eq_ok_iff.mp hrun
        obtain ⟨rfl, rfl⟩ := Files.Action.pure_eq_ok_iff.mp hrun
        exact ⟨used, file, document, count, mapError_eq_ok_iff.mp hused, hread, hdocument, hwrite,
          rfl⟩
  · rintro ⟨used, file, document, count, hused, hread, hdocument, hwrite, rfl⟩
    have hused : ofSetting settings.inUse = .ok used := mapError_eq_ok_iff.mpr hused
    refine ⟨?_, rfl⟩
    rw [Files.Action.bind_of_eq_ok (Files.Action.ofExcept_eq_ok_iff.mpr ⟨hused, rfl⟩),
      Files.Action.get_bind, hread]
    dsimp only
    rw [hdocument]
    dsimp only
    rw [Files.Action.tryCatch_eq_ok_iff fun _ _ => failed_ne_ok rfl]
    exact (Files.Action.bind_of_eq_ok hwrite _).trans rfl

/-- **A single document keeps the types of its file.** A conversion that succeeds leaves a document
at its path, in which every type stands that has a name and none of its name behind it. -/
theorem single_document_keeps_types (htree : tree.WellFormed)
    (hrun : convertFile settings stamp source directory tree = .ok result tree')
    (hsuccess : result.error = none) :
    ∃ used file document, settings.inUse = .ok used ∧
      readSource used.convention tree source = .ok file ∧
      KeepsTypes used.dialect file.parsed.types document ∧
      result.document = some document ∧
      result.output = (documentPath used.convention source directory).text ∧
      Holds tree' (documentPath used.convention source directory) document := by
  obtain ⟨used, file, document, count, hused, hread, hdocument, hwrite, hresult⟩ :=
    convertFile_success_iff.mp ⟨hrun, hsuccess⟩
  obtain ⟨-, hfault, hnull, between, location, hwrote⟩ := Writer.write_eq_ok htree hwrite
  have hback := readsBack_of_documentFault?_eq_none (hfault rfl)
  have hholds := holds_of_node?_eq hnull hwrote.wrote.locate_eq hwrote.wrote.node_eq hback
  exact ⟨used, file, document, hused, hread, keepsTypes_of_documentOf? hdocument, by rw [hresult],
    by rw [hresult], hholds⟩

end Run

/-! ### Names that are missing or repeated -/

def mixedText : String := "#%RAML 1.0 Library\ntypes:\n  :\n  Foo:\n  Foo:\n    enum:\n      - A\n"

def mixedTypes : List Declaration :=
  [{}, { name := "Foo" }, { name := "Foo", isEnum := true, values := ["A"] }]

def mixedTree : FileTree where
  nodes := [(["a.raml"], .file (Text.Utf8.encode mixedText))]

def mixedSource : Path := ⟨"", ["a.raml"]⟩

def mixedOutput : Path := ⟨"", ["out"]⟩

def mixedSettings : Settings := { dialect := .str "d" }

def mixedEntries : Entries String Json :=
  [("Foo", Schema.document (.str "d") { name := "Foo", isEnum := true, values := ["A"] })]

def mixedDocument : Json :=
  .obj [("$schema", .str "d"), ("title", .str "a"), ("type", .str "object"),
    ("properties", .obj []), ("definitions", .obj mixedEntries)]

set_option maxRecDepth 100000 in
theorem mixed_evaluated :
    ((readSource .pascal mixedTree mixedSource).toOption.map (·.parsed.types)) = some mixedTypes ∧
      documentOf? (.str "d") mixedSource.stem mixedTypes = some mixedDocument ∧
      (((Writer.mk mixedSettings.output "0").write (documentPath .pascal mixedSource mixedOutput)
        mixedDocument false).answer? mixedTree).isSome := by
  decide +kernel

theorem wellFormed_mixedTree : mixedTree.WellFormed :=
  FileTree.wellFormed_of_forall rfl (by decide)

theorem mixed_run : ∃ file result tree',
    readSource .pascal mixedTree mixedSource = .ok file ∧ file.parsed.types = mixedTypes ∧
      convertFile mixedSettings "0" mixedSource mixedOutput mixedTree = .ok result tree' ∧
      result.error = none ∧ result.document = some mixedDocument := by
  obtain ⟨hparsed, hdocument, hwrite⟩ := mixed_evaluated
  obtain ⟨file, hfile, htypes⟩ := Option.map_eq_some_iff.mp hparsed
  have hread := eq_ok_of_toOption_eq_some hfile
  rw [← htypes] at hdocument
  have hfault : documentFault? mixedDocument = none :=
    documentFault?_documentOf? hread hdocument
  rw [← Writer.write_unchecked hfault] at hwrite
  obtain ⟨count, tree', hwrite⟩ := Files.Action.exists_of_isSome_answer? hwrite
  have hused : mixedSettings.inUse = .ok mixedSettings := rfl
  obtain ⟨hrun, hsuccess⟩ := convertFile_success_iff.mpr
    ⟨mixedSettings, file, mixedDocument, count, hused, hread, hdocument, hwrite, rfl⟩
  exact ⟨file, _, tree', hread, htypes, hrun, hsuccess, rfl⟩

theorem single_document_keeps_types_mixed : ∃ result tree' document, mixedTree.WellFormed ∧
    convertFile mixedSettings "0" mixedSource mixedOutput mixedTree = .ok result tree' ∧
    result.error = none ∧ KeepsTypes (.str "d") mixedTypes document ∧
    Holds tree' (documentPath .pascal mixedSource mixedOutput) document := by
  obtain ⟨file, result, tree', hread, htypes, hrun, hsuccess, -⟩ := mixed_run
  obtain ⟨used, file', document, hused, hread', hkeeps, -, -, hholds⟩ :=
    single_document_keeps_types wellFormed_mixedTree hrun hsuccess
  obtain rfl : mixedSettings = used := Except.ok.inj hused
  obtain rfl : file = file' := Except.ok.inj (hread.symm.trans hread')
  rw [htypes] at hkeeps
  exact ⟨result, tree', document, wellFormed_mixedTree, hrun, hsuccess, hkeeps, hholds⟩

/-- Of three types, one is defined: the first has no name, and the second has that of the third. -/
theorem types_missing_from_document : ∃ file result tree' document, ∃ entries : Entries String Json,
    readSource .pascal mixedTree mixedSource = .ok file ∧ file.parsed.types.length = 3 ∧
      convertFile mixedSettings "0" mixedSource mixedOutput mixedTree = .ok result tree' ∧
      result.error = none ∧ result.document = some document ∧
      document.member? "definitions" = some (.obj entries) ∧ entries.length = 1 ∧
      ∃ unnamed ∈ file.parsed.types, ∃ first ∈ file.parsed.types,
        Entries.get? entries unnamed.name = none ∧
          Entries.get? entries first.name ≠ some (Schema.document (.str "d") first) := by
  obtain ⟨file, result, tree', hread, htypes, hrun, hsuccess, hdocument⟩ := mixed_run
  refine ⟨file, result, tree', mixedDocument, mixedEntries, hread, by rw [htypes]; rfl, hrun,
    hsuccess, hdocument, rfl, rfl, ?_⟩
  rw [htypes]
  refine ⟨{}, List.mem_cons_self, { name := "Foo" },
    List.mem_cons_of_mem _ List.mem_cons_self, rfl, ?_⟩
  decide +kernel

end RamlSchema.Conversion
