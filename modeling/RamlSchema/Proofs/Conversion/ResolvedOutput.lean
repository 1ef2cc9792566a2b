import RamlSchema.Proofs.Conversion.OutputListing
import RamlSchema.Proofs.References.Graph

/-!
# The references in an output directory

The aggregator refers to the file of every object, and the message refers to the aggregator and to
the metadata. A reference is looked up by the bare name of its file. The objects come first in the
order of the paths, so no other file can stand in front of one of them; and a name in capitalised
words is never that of a scaffold file. So each of these references leads to the file that it names.
-/

namespace RamlSchema.Conversion

open Files (FileTree Location Path)
open References (declaredName firstWith? Index IsResolved leadOf listing LoadedSchema Reference
  relativePath_ofDocument Resolver schemaEnding)
open Report (Run)

variable {dialect document : Json} {output : Path} {run : Run} {tree' : FileTree} {base : Location}
  {directory rest : List String} {stem key : String} {schema : LoadedSchema}

/-! ### Names that no other file has -/

/-- Whatever is not behind the objects is one of them. -/
theorem IsOutputFile.directory_eq_of_not_lt (h : IsOutputFile run directory stem) {file : String}
    (hbehind : ¬directoryParts .object ++ [file] < directory ++ [stem ++ schemaEnding]) :
    directory = directoryParts .object := by
  have hlt {first : String} {names : List String} (hfirst : "business-objects" < first) :
      directoryParts .object ++ [file] < first :: names := List.Lex.rel hfirst
  cases h with
  | object => rfl
  | enum => exact absurd (hlt (by decide)) hbehind
  | scaffold hstem =>
    simp only [scaffoldStems, List.mem_cons, List.not_mem_nil, or_false] at hstem
    rcases hstem with rfl | rfl | rfl <;> exact absurd (hlt (by decide)) hbehind

/-- The names of the scaffold files that are referred to. They start with a small letter, and they
do not end like the names of enums. -/
def referredStems : List String := ["metadata", "datamodelObjects"]

theorem exists_head_of_mem_referredStems (hstem : stem ∈ referredStems) :
    ∃ d ∈ stem.toList.head?, Text.Case.upperChar d ≠ [d] := by
  simp only [referredStems, List.mem_cons, List.not_mem_nil, or_false] at hstem
  rcases hstem with rfl | rfl
  · exact ⟨'m', by decide, by decide⟩
  · exact ⟨'d', by decide, by decide⟩

theorem IsOutputFile.directory_eq_nil (h : IsOutputFile run directory stem)
    (hstem : stem ∈ referredStems) : directory = [] := by
  cases h with
  | object =>
    obtain ⟨d, hd, hne⟩ := exists_head_of_mem_referredStems hstem
    exact absurd (Naming.upperChar_of_mem_head?_pascal hd) hne
  | enum =>
    have hlast : ∀ stem ∈ referredStems, stem.toList.getLast? ≠ "Enum".toList.getLast? := by decide
    refine absurd ?_ (hlast _ hstem)
    rw [String.toList_append]
    exact List.getLast?_append_of_ne_nil _ (by decide)
  | scaffold => rfl

/-! ### What a reference to a file leads to -/

/-- The reference to a file, by the directories that lead to it. -/
def referenceTo (directory : List String) (stem : String) : String :=
  "./" ++ (leadOf directory ++ (stem ++ schemaEnding))

theorem IsOutputFile.hash_notMem (h : IsOutputFile run directory stem) :
    '#' ∉ (leadOf directory).toList := by
  cases h <;> decide

theorem declaredName_referenceTo (hdirectory : '#' ∉ (leadOf directory).toList)
    (hstem : IsBare stem) : declaredName (referenceTo directory stem) = stem :=
  References.declaredName_append_ending hstem.slash_notMem hdirectory hstem.hash_notMem

section Loaded

variable (h : Delivered dialect output run tree' base)
  (hids : (((listing tree' output base).map Prod.snd).map (·.id)).Nodup)

include hids in
/-- One path leads to one schema, since its identifier is made of the path. -/
theorem eq_of_mem_listing {other : LoadedSchema}
    (hentry : (rest, schema) ∈ listing tree' output base)
    (hother : (rest, other) ∈ listing tree' output base) : other = schema := by
  refine List.inj_on_of_nodup_map hids (List.mem_map_of_mem hother) (List.mem_map_of_mem hentry) ?_
  exact (References.id_of_mem_listing hother).trans (References.id_of_mem_listing hentry).symm

include h hids

/-- A file is the first with a name if no other file has it at a path that is not behind. -/
theorem firstWith?_files (hentry : (rest, schema) ∈ listing tree' output base)
    (hkey : key ∈ schema.keys)
    (honly : ∀ directory stem document, IsOutputFile run directory stem →
      ¬rest < directory ++ [stem ++ schemaEnding] →
      key ∈ (LoadedSchema.ofDocument output (directory ++ [stem ++ schemaEnding]) document).keys →
      directory ++ [stem ++ schemaEnding] = rest) :
    firstWith? ((listing tree' output base).map Prod.snd) key = some schema := by
  refine References.firstWith?_listing hentry hkey fun rest' other hother hbehind hkey' => ?_
  obtain ⟨directory, stem, document, hfile, rfl, rfl⟩ := h.exists_isOutputFile hother
  obtain rfl := honly directory stem document hfile hbehind hkey'
  exact eq_of_mem_listing hids hentry hother

variable (hnames : ∀ kind, ∀ name ∈ run.names kind, IsBare name)
include hnames

/-- A reference to a file with a name leads to it if the file is the first with the name. -/
theorem search_referenceTo (hfile : IsOutputFile run directory stem) (hne : stem ≠ "")
    (hentry : (directory ++ [stem ++ schemaEnding], schema) ∈ listing tree' output base)
    (honly : ∀ directory', IsOutputFile run directory' stem →
      ¬directory ++ [stem ++ schemaEnding] < directory' ++ [stem ++ schemaEnding] →
      directory' = directory) :
    (Index.ofSchemas ((listing tree' output base).map Prod.snd)).search
        (.ofText (referenceTo directory stem)) = some schema.id := by
  have hstem := hfile.isBare hnames
  have hmem : schema ∈ (listing tree' output base).map Prod.snd := List.mem_map_of_mem hentry
  have hkey : stem ∈ schema.keys := by
    obtain ⟨_, _, document, -, hrest, rfl⟩ := h.exists_isOutputFile hentry
    rw [← hrest, References.mem_keys_ofDocument_iff hstem.slash_notMem]
    exact ⟨hne, .inl rfl⟩
  have hname : (Reference.ofText (referenceTo directory stem)).name = stem := by
    rw [Reference.name_ofText, declaredName_referenceTo hfile.hash_notMem hstem]
  have hfound := References.foundName?_of_name hmem (hname ▸ hkey)
  have hfirst : firstWith? ((listing tree' output base).map Prod.snd) stem = some schema := by
    refine firstWith?_files h hids hentry hkey
      fun directory' stem' document hfile' hbehind hkey' => ?_
    obtain rfl := References.eq_stem_of_mem_keys (hfile'.isBare hnames).slash_notMem
      hstem.slash_notMem hstem.dot_notMem hkey'
    rw [honly directory' hfile' hbehind]
  rw [Index.search_of_foundName? hfound, hname, hfirst]
  rfl

/-- The file of an object without a name is found by the path to it. -/
theorem search_nameless
    (hentry : (directoryParts .object ++ ["" ++ schemaEnding], schema) ∈
      listing tree' output base) :
    (Index.ofSchemas ((listing tree' output base).map Prod.snd)).search
        (.ofText (referenceTo (directoryParts .object) "")) = some schema.id := by
  set lead := leadOf (directoryParts .object) with hlead
  have hmem : schema ∈ (listing tree' output base).map Prod.snd := List.mem_map_of_mem hentry
  have hkey : lead ∈ schema.keys := by
    obtain ⟨_, _, document, -, hrest, rfl⟩ := h.exists_isOutputFile hentry
    rw [← hrest, References.mem_keys_ofDocument_iff (by decide)]
    exact ⟨by decide, .inr (.inr (.inl (by rw [String.append_empty])))⟩
  have hlookups : (Reference.ofText (referenceTo (directoryParts .object) "")).names =
      ["", "", lead] := by
    decide +kernel
  have hfound : (Reference.ofText (referenceTo (directoryParts .object) "")).foundName?
      ((listing tree' output base).map Prod.snd) = some lead := by
    rw [Reference.foundName?, hlookups]
    simp [References.firstWith?_empty, References.isSome_firstWith? hmem hkey]
  have hfirst : firstWith? ((listing tree' output base).map Prod.snd) lead = some schema := by
    refine firstWith?_files h hids hentry hkey
      fun directory' stem' document hfile hbehind hkey' => ?_
    obtain rfl := hfile.directory_eq_of_not_lt hbehind
    rw [References.stem_eq_empty_of_mem_keys (hfile.isBare hnames).slash_notMem (by decide) hkey']
  rw [Index.search_of_foundName? hfound, hfirst]
  rfl

theorem search_object {name : String} (hname : name ∈ run.objectNames)
    (hentry : (directoryParts .object ++ [Convention.pascal.apply name ++ schemaEnding], schema) ∈
      listing tree' output base) :
    (Index.ofSchemas ((listing tree' output base).map Prod.snd)).search
        (.ofText (referenceTo (directoryParts .object) (Convention.pascal.apply name))) =
      some schema.id := by
  by_cases hne : Convention.pascal.apply name = ""
  · rw [hne] at hentry ⊢
    exact search_nameless h hids hnames hentry
  · exact search_referenceTo h hids hnames (.object hname) hne hentry
      fun _ hfile hbehind => hfile.directory_eq_of_not_lt hbehind

theorem search_referred (hstem : stem ∈ referredStems)
    (hentry : ([stem ++ schemaEnding], schema) ∈ listing tree' output base) :
    (Index.ofSchemas ((listing tree' output base).map Prod.snd)).search
        (.ofText (referenceTo [] stem)) = some schema.id := by
  have hall : ∀ stem ∈ referredStems, stem ∈ scaffoldStems ∧ stem ≠ "" := by decide
  exact search_referenceTo h hids hnames (.scaffold (hall stem hstem).1) (hall stem hstem).2
    hentry fun _ hfile _ => hfile.directory_eq_nil hstem

end Loaded

/-! ### References of the scaffold -/

theorem mem_extract_closedObject {title name text : String} {properties : List (String × Json)}
    {required : List String} {value : Json} (hproperty : (name, value) ∈ properties)
    (htext : text ∈ References.extract value) :
    text ∈ References.extract (Schema.closedObject dialect title properties required) := by
  have hvalue := References.mem_extract_obj hproperty htext
  exact References.mem_extract_obj (List.mem_cons_of_mem _ (List.mem_cons_of_mem _
    (List.mem_cons_of_mem _ List.mem_cons_self))) hvalue

/-- The aggregator refers to the file of every object. Objects that share an entry share a file. -/
theorem referenceTo_mem_aggregator {names : List String} {name : String} (hname : name ∈ names) :
    referenceTo (directoryParts .object) (Convention.pascal.apply name) ∈
      References.extract (Schema.aggregatorDocument dialect Convention.pascal.apply names) := by
  have htext (name : String) : "./" ++ Schema.objectDirectory ++ "/" ++
      (Raml.Target.object name).fileNameBy Convention.pascal.apply =
        referenceTo (directoryParts .object) (Convention.pascal.apply name) := by
    have hlead : "./" ++ Schema.objectDirectory ++ "/" =
        "./" ++ leadOf (directoryParts .object) := by
      decide
    rw [hlead, referenceTo, String.append_assoc]
    rfl
  have hget := (Entries.forall_get?_ofList_map_iff (fun name => Convention.pascal.apply name)
    (fun name => Schema.referenceJson ("./" ++ Schema.objectDirectory ++ "/" ++
      (Raml.Target.object name).fileNameBy Convention.pascal.apply)) names).mpr
    (fun x _ y _ hkey => by rw [htext, htext, hkey]) name hname
  refine mem_extract_closedObject (Entries.mem_of_get?_eq_some hget) ?_
  rw [htext]
  exact References.mem_extract_referenceJson _

/-- The message refers to the metadata and to the aggregator. -/
theorem referenceTo_mem_message (hstem : stem ∈ referredStems) :
    referenceTo [] stem ∈ References.extract (Schema.messageDocument dialect) := by
  have htexts : "./" ++ Schema.metadataFile = referenceTo [] "metadata" ∧
      "./" ++ Schema.aggregatorFile = referenceTo [] "datamodelObjects" := by
    decide
  rw [Schema.messageDocument, htexts.1, htexts.2]
  simp only [referredStems, List.mem_cons, List.not_mem_nil, or_false] at hstem
  rcases hstem with rfl | rfl
  · exact mem_extract_closedObject List.mem_cons_self (References.mem_extract_referenceJson _)
  · refine mem_extract_closedObject (List.mem_cons_of_mem _ List.mem_cons_self) ?_
    refine References.mem_extract_obj List.mem_cons_self ?_
    exact References.mem_extract_arr List.mem_cons_self (References.mem_extract_referenceJson _)

/-! ### The resolved tree -/

theorem relativePath_scaffold (output : Path) (stem : String) (document : Json) :
    (LoadedSchema.ofDocument output [stem ++ schemaEnding] document).relativePath =
      stem ++ schemaEnding :=
  (relativePath_ofDocument output [] _ document).trans String.empty_append

/-- Only the files of objects lie in their directory. -/
theorem IsOutputFile.exists_object (h : IsOutputFile run directory stem)
    (hstarts : Text.startsWith (leadOf directory ++ (stem ++ schemaEnding))
      (Schema.objectDirectory ++ "/") = true) :
    ∃ name ∈ run.objectNames, directory = directoryParts .object ∧
      stem = Convention.pascal.apply name := by
  cases h with
  | object hname => exact ⟨_, hname, rfl, rfl⟩
  | @enum name =>
    have hother : Text.startsWith (leadOf (directoryParts .enum) ++
        (Convention.pascal.apply name ++ "Enum" ++ schemaEnding)) (Schema.objectDirectory ++ "/") =
          false := by
      refine Text.startsWith_eq_false_of_head (by decide) ?_
      rw [String.toList_append, List.head?_append_of_ne_nil _ (by decide)]
      decide
    rw [hother] at hstarts
    cases hstarts
  | scaffold hstem =>
    have hall : ∀ stem ∈ scaffoldStems, Text.startsWith (leadOf [] ++ (stem ++ schemaEnding))
        (Schema.objectDirectory ++ "/") = false := by decide
    rw [hall stem hstem] at hstarts
    cases hstarts

section Resolved

variable {final : LoadedSchema}
  (hids : (((listing tree' output base).map Prod.snd).map (·.id)).Nodup)
  (hfinal : IsResolved ((listing tree' output base).map Prod.snd) schema final)
include hids hfinal

/-- A file is among the sources of another one that a text in its document leads to. -/
theorem mem_referencedBy_of_search {text : String}
    (hsource : (rest, .ofDocument output rest document) ∈ listing tree' output base)
    (hschema : schema ∈ (listing tree' output base).map Prod.snd)
    (hpath : (LoadedSchema.ofDocument output rest document).relativePath ≠ schema.relativePath)
    (htext : text ∈ References.extract document)
    (hsearch : (Index.ofSchemas ((listing tree' output base).map Prod.snd)).search (.ofText text) =
      some schema.id) :
    (LoadedSchema.ofDocument output rest document).id ∈ final.referencedBy := by
  have hmem := List.mem_map_of_mem (f := Prod.snd) hsource
  refine (hfinal.mem_referencedBy _).mpr ⟨fun hid => hpath ?_, _, hmem, rfl, _,
    List.mem_map_of_mem htext, hsearch⟩
  exact congrArg LoadedSchema.relativePath (List.inj_on_of_nodup_map hids hmem hschema hid)

variable (h : Delivered dialect output run tree' base)
  (hnames : ∀ kind, ∀ name ∈ run.names kind, IsBare name)
include h hnames

theorem aggregator_mem_referencedBy (hschema : schema ∈ (listing tree' output base).map Prod.snd)
    (hstarts : Text.startsWith schema.relativePath (Schema.objectDirectory ++ "/") = true) :
    (LoadedSchema.ofDocument output ["datamodelObjects" ++ schemaEnding]
      (Schema.aggregatorDocument dialect Convention.pascal.apply run.objectNames)).id ∈
        final.referencedBy := by
  obtain ⟨⟨rest, _⟩, hentry, rfl⟩ := List.mem_map.mp hschema
  obtain ⟨directory, stem, document, hfile, rfl, rfl⟩ := h.exists_isOutputFile hentry
  rw [relativePath_ofDocument] at hstarts
  obtain ⟨name, hname, rfl, rfl⟩ := hfile.exists_object hstarts
  refine mem_referencedBy_of_search hids hfinal (h.mem_listing_scaffold h.aggregator) hschema ?_
    (referenceTo_mem_aggregator hname) (search_object h hids hnames hname hentry)
  rw [relativePath_scaffold, relativePath_ofDocument]
  intro hsame
  rw [← hsame] at hstarts
  exact absurd hstarts (by decide)

theorem message_mem_referencedBy (hstem : stem ∈ referredStems)
    (hentry : ([stem ++ schemaEnding], schema) ∈ listing tree' output base) :
    (LoadedSchema.ofDocument output ["message" ++ schemaEnding]
      (Schema.messageDocument dialect)).id ∈ final.referencedBy := by
  refine mem_referencedBy_of_search hids hfinal (h.mem_listing_scaffold h.message)
    (List.mem_map_of_mem hentry) ?_ (referenceTo_mem_message hstem)
    (search_referred h hids hnames hstem hentry)
  obtain ⟨node, -, hload⟩ := References.mem_listing_iff.mp hentry
  obtain ⟨-, document, -, -, -, -, rfl⟩ := References.loadNode_eq_some_iff.mp hload
  have hother : ∀ stem ∈ referredStems, "message" ++ schemaEnding ≠ stem ++ schemaEnding := by
    decide
  rw [relativePath_scaffold, relativePath_scaffold]
  exact hother stem hstem

end Resolved

/-- **The references of a converted tree lead where they should.** After a run in capitalised words,
with the scaffold and with bare names, into an empty directory, the output can be loaded, unless
double dots lead to it. Whenever the loaded schemas have distinct identifiers, there is one for the
file of every object; and once the references are resolved the aggregator is among the sources of
each of these, and the message among those of the metadata and of the aggregator. -/
theorem converted_tree_resolves {settings used : Settings} {stamp : String} {input : Path}
    {tree : FileTree} (htree : tree.WellFormed) (hused : settings.inUse = .ok used)
    (hconvention : used.convention = .pascal) (hscaffold : used.scaffold.isTruthy = true)
    (hvacant : tree.Vacant (output.place tree.here))
    (hrun : convertDirectory settings stamp input output tree = .ok run tree')
    (hnames : ∀ kind, ∀ name ∈ run.names kind, IsBare name) (batchSize workers : Nat) :
    (".." ∉ output.parts → ∃ loaded, References.load tree' output = .ok loaded) ∧
    ∀ loaded, References.load tree' output = .ok loaded → (loaded.map (·.id)).Nodup →
      let after := (({ batchSize, workers } : Resolver).resolve loaded).1
      ∃ aggregator ∈ after, ∃ message ∈ after, ∃ metadata ∈ after,
        aggregator.relativePath = Schema.aggregatorFile ∧
        message.relativePath = Schema.messageFile ∧ metadata.relativePath = Schema.metadataFile ∧
        (∀ name ∈ run.objectNames, ∃ schema ∈ after, schema.relativePath =
          Schema.objectDirectory ++ "/" ++ (Raml.Target.object name).fileName used.convention) ∧
        (∀ schema ∈ after,
          Text.startsWith schema.relativePath (Schema.objectDirectory ++ "/") = true →
            aggregator.id ∈ schema.referencedBy) ∧
        message.id ∈ metadata.referencedBy ∧ message.id ∈ aggregator.referencedBy := by
  have hslash : ∀ kind, ∀ name ∈ run.names kind, '/' ∉ name.toList :=
    fun kind name hname => (hnames kind name hname).slash_notMem
  obtain ⟨base, h⟩ := exists_delivered htree hused hconvention hscaffold hvacant hslash hrun
  refine ⟨fun hup => exists_load_of_run htree hvacant hslash hrun hup h,
    fun loaded hload hids => ?_⟩
  obtain rfl := References.eq_listing_of_load h.look_eq h.locate_eq hload
  have hgraph :=
    References.isGraphOf_resolve batchSize workers ((listing tree' output base).map Prod.snd)
  have haggregator := h.mem_listing_scaffold h.aggregator
  have hmetadata := h.mem_listing_scaffold h.metadata
  obtain ⟨aggregator, haggregatorMem, haggregatorOf⟩ :=
    hgraph.exists_final hids (List.mem_map_of_mem haggregator)
  obtain ⟨message, hmessageMem, hmessageOf⟩ :=
    hgraph.exists_final hids (List.mem_map_of_mem (h.mem_listing_scaffold h.message))
  obtain ⟨metadata, hmetadataMem, hmetadataOf⟩ :=
    hgraph.exists_final hids (List.mem_map_of_mem hmetadata)
  have hfiles : "message" ++ schemaEnding = Schema.messageFile ∧
      "metadata" ++ schemaEnding = Schema.metadataFile ∧
      "datamodelObjects" ++ schemaEnding = Schema.aggregatorFile := by decide
  refine ⟨aggregator, haggregatorMem, message, hmessageMem, metadata, hmetadataMem, ?_, ?_, ?_,
    fun name hname => ?_, fun final hfinal hstarts => ?_, ?_, ?_⟩
  · rw [haggregatorOf.relativePath_eq, relativePath_scaffold, hfiles.2.2]
  · rw [hmessageOf.relativePath_eq, relativePath_scaffold, hfiles.1]
  · rw [hmetadataOf.relativePath_eq, relativePath_scaffold, hfiles.2.1]
  · obtain ⟨document, hholds⟩ := h.object name hname
    obtain ⟨final, hfinal, hfinalOf⟩ :=
      hgraph.exists_final hids (List.mem_map_of_mem (h.mem_listing (by decide) hholds))
    have hlead : leadOf (directoryParts .object) = Schema.objectDirectory ++ "/" := by decide
    refine ⟨final, hfinal, hfinalOf.relativePath_eq.trans ?_⟩
    rw [relativePath_ofDocument, hlead, hconvention, fileName_object_pascal]
  · obtain ⟨schema, hschema, hfinalOf⟩ := hgraph.exists_schema hids hfinal
    rw [hfinalOf.relativePath_eq] at hstarts
    rw [haggregatorOf.id_eq]
    exact aggregator_mem_referencedBy hids hfinalOf h hnames hschema hstarts
  · rw [hmessageOf.id_eq]
    exact message_mem_referencedBy hids hmetadataOf h hnames (by decide) hmetadata
  · rw [hmessageOf.id_eq]
    exact message_mem_referencedBy hids haggregatorOf h hnames (by decide) haggregator

/-! ### An object that is named like a file of the scaffold -/

def namesakeText : String :=
  "#%RAML 1.0 Library\ntypes:\n  metadata:\n  hue:\n    enum:\n      - red\n"

/-- A directory with one library, which declares an object and an enum. -/
def namesakeTree : FileTree where
  nodes := [(["in"], .directory), (["in", "a.raml"], .file (Text.Utf8.encode namesakeText))]

def namesakeTypes : List Raml.Declaration :=
  [{ name := "metadata" }, { name := "hue", isEnum := true, values := ["red"] }]

/-- Where the directories and files lie below the output directory. -/
def namesakePlaces : List Location :=
  [["common"], ["common", "enums"], ["business-objects"],
    ["common", "enums", "HueEnum.schema.json"], ["business-objects", "Metadata.schema.json"],
    ["message.schema.json"], ["metadata.schema.json"], ["datamodelObjects.schema.json"]]

set_option maxRecDepth 100000 in
theorem namesake_evaluated :
    (discover sampleSettings namesakeTree twinInput).toOption = some [⟨"", ["in", "a.raml"]⟩] ∧
    typesRead sampleSettings.convention namesakeTree [⟨"", ["in", "a.raml"]⟩] = namesakeTypes ∧
    ((createDirectories twinOutput >>= fun _ => writeUnchecked ⟨sampleSettings.output, "0"⟩
        (filesOf sampleSettings twinOutput namesakeTypes)).answer? namesakeTree).map
      (fun answer => (answer.2.nodesBelow ["out"]).map Prod.fst) = some namesakePlaces := by
  decide +kernel

theorem wellFormed_namesakeTree : namesakeTree.WellFormed :=
  FileTree.wellFormed_of_forall rfl (by decide)

theorem vacant_namesakeTree : namesakeTree.Vacant (twinOutput.place namesakeTree.here) := by
  have hentries : ∀ entry ∈ namesakeTree.nodes, entry.1.head? ≠ some "out" := by decide
  intro names hnames
  have hplace : twinOutput.place namesakeTree.here = ["out"] := rfl
  rw [hplace, FileTree.node?, List.cons_append, if_neg (by simp), Entries.get?_eq_none_iff]
  intro hkey
  obtain ⟨entry, hentry, hlocation⟩ := List.mem_map.mp hkey
  exact hentries entry hentry (by rw [hlocation, List.head?_cons])

theorem namesake_run : ∃ run tree',
    convertDirectory sampleSettings "0" twinInput twinOutput namesakeTree = .ok run tree' ∧
      run.enumNames = ["hue"] ∧ run.objectNames = ["metadata"] ∧ tree'.here = [] ∧
      (tree'.nodesBelow ["out"]).map Prod.fst = namesakePlaces := by
  obtain ⟨hdiscover, htypes, hplaces⟩ := namesake_evaluated
  have hsources := eq_ok_of_toOption_eq_some hdiscover
  have hused : sampleSettings.inUse = .ok sampleSettings := rfl
  have hwrites : ((createDirectories twinOutput >>= fun _ =>
      writeUnchecked ⟨sampleSettings.output, "0"⟩
        (filesOf sampleSettings twinOutput namesakeTypes)).answer? namesakeTree).isSome := by
    rw [← Option.isSome_map, hplaces, Option.isSome_some]
  obtain ⟨run, tree', hrun⟩ := exists_run_of_writeUnchecked hused hsources rfl rfl htypes hwrites
  have hanswer := answer?_writeUnchecked_of_run hused hsources rfl hrun
  have hdone := completed_of_run wellFormed_namesakeTree hused hsources hrun
  have hnames := hdone.names_eq
  rw [htypes] at hanswer hnames
  rw [hanswer, Option.map_some, Option.some.injEq] at hplaces
  exact ⟨run, tree', hrun, hnames .enum, hnames .object, hdone.allWritten.keptIn.here_eq, hplaces⟩

/-- Where no file is but in these places, each has its own identifier. -/
theorem nodup_ids_namesakePlaces (tree : FileTree)
    (hplaces : (tree.nodesBelow ["out"]).map Prod.fst = namesakePlaces) :
    (((listing tree twinOutput ["out"]).map Prod.snd).map (·.id)).Nodup := by
  have hdistinct : ∀ first ∈ namesakePlaces, ∀ other ∈ namesakePlaces,
      References.schemaId (twinOutput.within first).text =
        References.schemaId (twinOutput.within other).text → first = other := by
    decide +kernel
  have hnodup : namesakePlaces.Nodup := by decide
  rw [← hplaces] at hdistinct hnodup
  exact References.nodup_ids_listing hnodup hdistinct

/-- The object and the metadata each are found by the files that refer to them. -/
theorem converted_tree_resolves_namesake : ∃ run tree' loaded,
    convertDirectory sampleSettings "0" twinInput twinOutput namesakeTree = .ok run tree' ∧
      References.load tree' twinOutput = .ok loaded ∧ run.objectNames = ["metadata"] ∧
      let after := (({ batchSize := 1, workers := 1 } : Resolver).resolve loaded).1
      ∃ aggregator ∈ after, ∃ message ∈ after, ∃ metadata ∈ after, ∃ object ∈ after,
        metadata.relativePath = "metadata.schema.json" ∧ message.id ∈ metadata.referencedBy ∧
        object.relativePath = "business-objects/Metadata.schema.json" ∧
        aggregator.id ∈ object.referencedBy := by
  obtain ⟨run, tree', hrun, henums, hobjects, hhere, hplaces⟩ := namesake_run
  have hnames : ∀ kind, ∀ name ∈ run.names kind, IsBare name := by
    intro kind
    cases kind with
    | enum =>
      change ∀ name ∈ run.enumNames, IsBare name
      rw [henums, List.forall_mem_singleton]
      exact ⟨by decide, by decide, by decide⟩
    | object =>
      change ∀ name ∈ run.objectNames, IsBare name
      rw [hobjects, List.forall_mem_singleton]
      exact ⟨by decide, by decide, by decide⟩
  have hused : sampleSettings.inUse = .ok sampleSettings := rfl
  obtain ⟨hloads, hresolves⟩ := converted_tree_resolves wellFormed_namesakeTree hused rfl rfl
    vacant_namesakeTree hrun hnames 1 1
  obtain ⟨loaded, hload⟩ := hloads (by decide)
  obtain ⟨base, h⟩ := exists_delivered wellFormed_namesakeTree hused rfl rfl vacant_namesakeTree
    (fun kind name hname => (hnames kind name hname).slash_notMem) hrun
  obtain rfl : base = ["out"] := by
    rw [Files.eq_place_of_locate h.locate_eq, hhere]
    rfl
  have hids : (loaded.map (·.id)).Nodup := by
    rw [References.eq_listing_of_load h.look_eq h.locate_eq hload]
    exact nodup_ids_namesakePlaces tree' hplaces
  obtain ⟨aggregator, haggregator, message, hmessage, metadata, hmetadata, -, -, hpath, hfiles,
    hsources, hreferenced, -⟩ := hresolves loaded hload hids
  obtain ⟨object, hobject, hobjectPath⟩ := hfiles "metadata" (by rw [hobjects]; decide)
  have hfile : Schema.objectDirectory ++ "/" ++ (Raml.Target.object "metadata").fileName
      sampleSettings.convention = "business-objects/Metadata.schema.json" := by decide
  rw [hfile] at hobjectPath
  have hstarts : Text.startsWith "business-objects/Metadata.schema.json"
      (Schema.objectDirectory ++ "/") = true := by decide
  exact ⟨run, tree', loaded, hrun, hload, hobjects, aggregator, haggregator, message, hmessage,
    metadata, hmetadata, object, hobject, hpath, hreferenced, hobjectPath,
    hsources object hobject (hobjectPath ▸ hstarts)⟩

end RamlSchema.Conversion
