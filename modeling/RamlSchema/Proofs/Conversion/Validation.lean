import RamlSchema.Proofs.Conversion.Completed
import RamlSchema.Proofs.Schema.Plain

/-!
# Validated documents

Validation reads a document back from its text and asks an object for its dialect. Plain documents
always come back, so they are refused only for a missing dialect, and what a conversion writes has
one. A run does not stop at a document, then, and completes if its files can be written.
-/

namespace RamlSchema.Conversion

open Files (FileTree Path)
open Json (IsPlain)
open Raml (Declaration Parsed)
open Report (Kind)

/-- An object that does not name its dialect. -/
def LacksDialect (document : Json) : Prop :=
  ∃ members, document = .obj members ∧ "$schema" ∉ Entries.keys members

theorem readsBack_of_isPlain {document : Json} (hplain : IsPlain document) :
    readsBack document = true := by
  refine readsBack_iff.mpr ⟨?_, Json.read?_print hplain⟩
  rintro rfl
  cases hplain

theorem documentFault?_eq_none_iff {document : Json} (hplain : IsPlain document) :
    documentFault? document = none ↔ ¬LacksDialect document := by
  unfold documentFault?
  simp only [readsBack_of_isPlain hplain, Bool.not_true, Bool.false_eq_true, if_false]
  split
  case h_1 members =>
    have hlacks : LacksDialect (.obj members) ↔ Entries.get? members "$schema" = none := by
      simp [LacksDialect, Entries.get?_eq_none_iff]
    rw [hlacks, Json.member?]
    cases Entries.get? members "$schema" <;> simp
  case h_2 hobject =>
    refine iff_of_true rfl ?_
    rintro ⟨members, rfl, -⟩
    exact hobject members rfl

theorem not_lacksDialect_cons (dialect : Json) (members : Entries String Json) :
    ¬LacksDialect (.obj (("$schema", dialect) :: members)) := by
  rintro ⟨members, heq, hkey⟩
  obtain rfl := Json.obj.inj heq
  exact hkey (by simp [Entries.keys])

/-! ### What a conversion writes -/

theorem nodupKeys_of_mem_types {convention : Convention} {content stem : String}
    {source : Option String} {parsed : Parsed}
    (hparse : Raml.Source.parse convention content stem source = .ok parsed) {type : Declaration}
    (htype : type ∈ parsed.types) : type.properties.NodupKeys := by
  obtain ⟨declared, lifted, htypes, hsited⟩ := Raml.Source.exists_sited hparse
  rw [htypes, List.mem_append] at htype
  rcases htype with htype | htype
  · obtain ⟨sited, hmem, rfl⟩ := List.mem_map.mp htype
    rw [(hsited.isMade sited hmem).properties_eq]
    exact Entries.nodupKeys_ofList _
  · rw [hsited.lifted_eq] at htype
    obtain ⟨site, -, hlifted⟩ := List.mem_filterMap.mp htype
    obtain ⟨values, -, rfl⟩ := Raml.Site.exists_of_liftedEnum hlifted
    exact Entries.nodupKeys_nil

theorem documentFault?_document {convention : Convention} {content stem : String}
    {source : Option String} {parsed : Parsed}
    (hparse : Raml.Source.parse convention content stem source = .ok parsed) {type : Declaration}
    (htype : type ∈ parsed.types) (dialect : String) :
    documentFault? (Schema.document (.str dialect) type) = none := by
  have hplain := Schema.isPlain_document (.str dialect) (nodupKeys_of_mem_types hparse htype)
  obtain ⟨members, hmembers⟩ := Schema.document_eq_cons (.str dialect) type
  rw [documentFault?_eq_none_iff hplain, hmembers]
  exact not_lacksDialect_cons _ _

theorem documentFault?_of_mem_scaffoldFiles {settings : Settings} {dialect : String}
    (hdialect : settings.dialect = .str dialect) {output : Path} {names : List String}
    {file : Path × Json} (hfile : file ∈ scaffoldFiles settings output names) :
    documentFault? file.2 = none := by
  simp only [scaffoldFiles, hdialect, List.mem_cons, List.not_mem_nil, or_false] at hfile
  rcases hfile with rfl | rfl | rfl
  · exact (documentFault?_eq_none_iff (Schema.isPlain_messageDocument (.str dialect))).mpr
      (not_lacksDialect_cons _ _)
  · exact (documentFault?_eq_none_iff (Schema.isPlain_metadataDocument (.str dialect))).mpr
      (not_lacksDialect_cons _ _)
  · exact (documentFault?_eq_none_iff
      (Schema.isPlain_aggregatorDocument (.str dialect) _ names)).mpr (not_lacksDialect_cons _ _)

theorem documentFault?_of_mem_filesOf {settings : Settings} {dialect : String}
    (hdialect : settings.dialect = .str dialect) {output : Path} {tree : FileTree}
    {sources : List Path} {file : Path × Json}
    (hfile : file ∈ filesOf settings output (typesRead settings.convention tree sources)) :
    documentFault? file.2 = none := by
  have hschema {kind : Kind} (hfile : file ∈ schemaFiles settings.convention output kind
      (registered settings.dialect kind (typesRead settings.convention tree sources))) :
      documentFault? file.2 = none := by
    obtain ⟨name, type, hlast, rfl⟩ := mem_schemaFiles_iff.mp hfile
    obtain ⟨htype, -, -⟩ := of_lastType?_eq_some hlast
    obtain ⟨path, -, source, hread, htype⟩ := mem_typesRead_iff.mp htype
    rw [hdialect]
    exact documentFault?_document (parse_of_readSource hread) htype dialect
  rw [filesOf, List.mem_append, List.mem_append] at hfile
  rcases hfile with (hfile | hfile) | hfile
  · exact hschema hfile
  · exact hschema hfile
  · split at hfile
    case isTrue => exact documentFault?_of_mem_scaffoldFiles hdialect hfile
    case isFalse => exact absurd hfile List.not_mem_nil

/-! ### Runs that complete -/

theorem Writer.write_unchecked {document : Json} (hfault : documentFault? document = none)
    (writer : Writer) (path : Path) :
    writer.write path document true = writer.write path document false := by
  unfold Writer.write
  rw [hfault]
  rfl

def writeUnchecked (writer : Writer) (documents : List (Path × Json)) : Action Unit :=
  documents.forM fun (path, document) => do
    let _ ← writer.write path document false

theorem writeAll_eq_writeUnchecked {documents : List (Path × Json)}
    (hfaults : ∀ file ∈ documents, documentFault? file.2 = none) (writer : Writer) :
    writeAll writer documents = writeUnchecked writer documents := by
  induction documents with
  | nil => rfl
  | cons file documents ih =>
    obtain ⟨hfault, hlater⟩ := List.forall_mem_cons.mp hfaults
    change ((writer.write file.1 file.2 true >>= fun _ => pure PUnit.unit : Action Unit) >>=
      fun _ => writeAll writer documents) = _
    rw [Writer.write_unchecked hfault, ih hlater]
    rfl

/-- The steps that change files never stop at a document that passes. -/
theorem isSome_answer?_writeRun {documents : List (Path × Json)}
    (hfaults : ∀ file ∈ documents, documentFault? file.2 = none) (output : Path) (writer : Writer)
    (run : Report.Run) (tree : FileTree) :
    ((writeRun output writer documents run).answer? tree).isSome =
      ((createDirectories output >>= fun _ => writeUnchecked writer documents).answer?
        tree).isSome := by
  rw [writeRun_eq_bind, Files.Action.isSome_answer?_bind_pure, writeAll_eq_writeUnchecked hfaults]

/-- A run completes if its files can be written: it never stops at a document. -/
theorem exists_run_of_writeUnchecked {settings used : Settings} {dialect stamp : String}
    {input output : Path} {tree : FileTree} {sources : List Path} {types : List Declaration}
    (hused : settings.inUse = .ok used) (hsources : discover used tree input = .ok sources)
    (hworkers : used.checkWorkers = .ok ()) (hdialect : used.dialect = .str dialect)
    (htypes : typesRead used.convention tree sources = types)
    (hwrites : ((createDirectories output >>= fun _ =>
      writeUnchecked ⟨used.output, stamp⟩ (filesOf used output types)).answer? tree).isSome) :
    ∃ run tree', convertDirectory settings stamp input output tree = .ok run tree' := by
  subst htypes
  have hfaults : ∀ file ∈ filesOf used output (typesRead used.convention tree sources),
      documentFault? file.2 = none := fun file => documentFault?_of_mem_filesOf hdialect
  rw [convertDirectory_eq_writeRun hused hsources hworkers]
  refine Files.Action.exists_of_isSome_answer? ?_
  rw [isSome_answer?_writeRun hfaults, hwrites]

/-- What a run leaves is what it writes without reading it back. -/
theorem answer?_writeUnchecked_of_run {settings used : Settings} {dialect stamp : String}
    {input output : Path} {tree tree' : FileTree} {sources : List Path} {run : Report.Run}
    (hused : settings.inUse = .ok used) (hsources : discover used tree input = .ok sources)
    (hdialect : used.dialect = .str dialect)
    (hrun : convertDirectory settings stamp input output tree = .ok run tree') :
    (createDirectories output >>= fun _ => writeUnchecked ⟨used.output, stamp⟩
      (filesOf used output (typesRead used.convention tree sources))).answer? tree =
        some ((), tree') := by
  obtain ⟨used', sources', hused', hsources', -, between, hdirectories, hwrite⟩ :=
    convertDirectory_eq_ok hrun
  obtain rfl := Except.ok.inj (hused.symm.trans hused')
  obtain rfl := Except.ok.inj (hsources.symm.trans hsources')
  rw [writeAll_eq_writeUnchecked fun file => documentFault?_of_mem_filesOf hdialect] at hwrite
  rw [Files.Action.answer?, Files.Action.bind_of_eq_ok hdirectories, hwrite]

/-- **Printed documents are read back, and none that a conversion writes is refused.** A plain
document comes back from its text as it was, and only an object without a dialect fails validation;
with a text as the dialect, the document of every type of a file and every file of a run passes. -/
theorem printed_documents_validate :
    (∀ document, IsPlain document → Json.read? document.print = some document) ∧
    (∀ document, IsPlain document → (documentFault? document = none ↔ ¬LacksDialect document)) ∧
    (∀ convention content stem source parsed,
      Raml.Source.parse convention content stem source = .ok parsed → ∀ type ∈ parsed.types,
      ∀ dialect : String, documentFault? (Schema.document (.str dialect) type) = none) ∧
    ∀ (settings : Settings) (dialect : String), settings.dialect = .str dialect →
      ∀ (tree : FileTree) (output : Path) (sources : List Path),
      ∀ file ∈ outputFiles settings output
        (gather (sources.map (convertSource settings tree output))).registry,
      documentFault? file.2 = none := by
  refine ⟨fun _ => Json.read?_print, fun _ => documentFault?_eq_none_iff, ?_, ?_⟩
  · intro convention content stem source parsed hparse type htype dialect
    exact documentFault?_document hparse htype dialect
  · intro settings dialect hdialect tree output sources file hfile
    rw [outputFiles_gather] at hfile
    exact documentFault?_of_mem_filesOf hdialect hfile

/-- A document with signs to escape, an empty list, a nested object and a negative number. -/
def sampleDocument : Json :=
  .obj [("ä\"\n", .arr []), ("$schema", .obj [("b", .int (-120))])]

def sampleSettings : Settings := { dialect := .str "d" }

/-- A document of several kinds of values, a file of one type, and a run without source files. -/
theorem printed_documents_validate_sample :
    IsPlain sampleDocument ∧ Json.read? sampleDocument.print = some sampleDocument ∧
      documentFault? sampleDocument = none ∧
      (∃ parsed, Raml.Source.parse .pascal "#%RAML 1.0 DataType" "paint" none = .ok parsed ∧
        parsed.types ≠ [] ∧
        ∀ type ∈ parsed.types, documentFault? (Schema.document (.str "d") type) = none) ∧
      ∃ path, (path, Schema.metadataDocument sampleSettings.dialect) ∈
          outputFiles sampleSettings ⟨"", ["out"]⟩ {} ∧
        documentFault? (Schema.metadataDocument sampleSettings.dialect) = none := by
  have hplain : IsPlain sampleDocument := by simp [sampleDocument, Entries.keys]
  have hdialect : ¬LacksDialect sampleDocument := by
    rintro ⟨members, heq, hkey⟩
    obtain rfl := Json.obj.inj heq
    exact absurd hkey (by decide)
  have hfile : ((⟨"", ["out"]⟩ : Path).child Schema.metadataFile,
      Schema.metadataDocument sampleSettings.dialect) ∈
        outputFiles sampleSettings ⟨"", ["out"]⟩ {} :=
    .tail _ (.head _)
  obtain ⟨parsed, hparse, htypes⟩ : ∃ parsed,
      Raml.Source.parse .pascal "#%RAML 1.0 DataType" "paint" none = .ok parsed ∧
        parsed.types ≠ [] := ⟨_, rfl, List.cons_ne_nil _ _⟩
  obtain ⟨hread, hfault, hparsed, hfiles⟩ := printed_documents_validate
  refine ⟨hplain, hread _ hplain, (hfault _ hplain).mpr hdialect, ⟨parsed, hparse, htypes, ?_⟩,
    _, hfile, hfiles sampleSettings "d" rfl {} ⟨"", ["out"]⟩ [] _ hfile⟩
  intro type htype
  exact hparsed _ _ _ _ _ hparse type htype "d"

end RamlSchema.Conversion
