import RamlSchema.Proofs.Conversion.Confinement
import RamlSchema.Proofs.Files.Stable
import RamlSchema.Proofs.References.Load

/-!
# What a run leaves in an empty directory

A run into an empty directory leaves there the files of its enums, of its objects and of the
scaffold, and besides them nothing but directories. In capitalised words each of these files is
named for a schema, by a name that no other file of its directory has. All that is there lies on the
way of a path that the run has followed itself, so that it can be read again.
-/

namespace RamlSchema.Conversion

open Files (Action.Keeps Action.keeps_pure after_of_eq_error after_of_eq_ok FileTree Location OnWay
  Path Stable)
open Raml (Target)
open References (listing LoadedSchema schemaEnding)
open Report (Kind Run)

variable {settings used : Settings} {stamp : String} {input output path : Path}
  {tree tree' : FileTree} {run : Run} {sources : List Path} {base : Location}
  {directory rest : List String} {stem : String}

/-! ### Entries that stand for one place -/

section Stable

variable {P : FileTree → Prop}

theorem keeps_onFiles {α : Type} {action : Files.Action Files.Fault α} (haction : action.Keeps P) :
    Action.Keeps P (onFiles action) := by
  intro tree htree
  rw [after_onFiles]
  exact haction tree htree

variable (h : Stable P)
include h

theorem keeps_createDirectories (output : Path) : Action.Keeps P (createDirectories output) :=
  (keeps_onFiles (h.keeps_ensureDirectories _)).bind fun _ =>
    (keeps_onFiles (h.keeps_ensureDirectories _)).bind fun _ =>
      keeps_onFiles (h.keeps_ensureDirectories _)

theorem Writer.keeps_write (writer : Writer) (path : Path) (document : Json) (validate : Bool) :
    Action.Keeps P (writer.write path document validate) := by
  intro tree htree
  rcases writer.write_cases path document validate tree with ⟨fault, hrefused⟩ |
    ⟨-, atomic, hwrite⟩
  · rwa [after_of_eq_error hrefused]
  · have hbytes : Action.Keeps P
        (writeBytes writer.stamp atomic path (Text.Utf8.encode document.print)) := by
      refine (h.keeps_ensureDirectories _).bind fun _ => ?_
      cases atomic with
      | true => exact h.keeps_writeAtomically _ _ _
      | false => exact h.keeps_writeDirectly _ _
    unfold Files.Action.after
    rw [hwrite]
    exact (keeps_onFiles hbytes).bind (fun _ => Action.keeps_pure _) tree htree

theorem keeps_writeAll (writer : Writer) (documents : List (Path × Json)) :
    Action.Keeps P (writeAll writer documents) := by
  induction documents with
  | nil => exact Action.keeps_pure _
  | cons file documents ih =>
    rw [writeAll_cons]
    exact (writer.keeps_write h file.1 file.2 true).bind fun _ => ih

theorem property_of_run (htree : P tree)
    (hrun : convertDirectory settings stamp input output tree = .ok run tree') : P tree' := by
  obtain ⟨used, sources, -, -, -, between, hdirectories, hwrite⟩ := convertDirectory_eq_ok hrun
  have hbetween := keeps_createDirectories h output tree htree
  rw [after_of_eq_ok hdirectories] at hbetween
  have hwritten := keeps_writeAll h ⟨used.output, stamp⟩
    (filesOf used output (typesRead used.convention tree sources)) between hbetween
  rwa [after_of_eq_ok hwrite] at hwritten

end Stable

/-! ### The files of a run -/

/-- A name with none of the marks that divide a reference. -/
structure IsBare (name : String) : Prop where
  slash_notMem : '/' ∉ name.toList
  dot_notMem : '.' ∉ name.toList
  hash_notMem : '#' ∉ name.toList

def scaffoldStems : List String := ["message", "metadata", "datamodelObjects"]

theorem scaffoldNames_eq_map : scaffoldNames = scaffoldStems.map (· ++ schemaEnding) := by decide

/-- The files of a run in capitalised words, each by the directories that lead to it and by its name
without the ending. -/
inductive IsOutputFile (run : Run) : List String → String → Prop where
  | object {name : String} (hname : name ∈ run.objectNames) :
      IsOutputFile run (directoryParts .object) (Convention.pascal.apply name)
  | enum {name : String} (hname : name ∈ run.enumNames) :
      IsOutputFile run (directoryParts .enum) (Convention.pascal.apply name ++ "Enum")
  | scaffold {stem : String} (hstem : stem ∈ scaffoldStems) : IsOutputFile run [] stem

theorem fileName_object_pascal (name : String) :
    (Target.object name).fileName .pascal = Convention.pascal.apply name ++ schemaEnding :=
  fileName_eq_stemOf_append .pascal .object name

theorem fileName_enum_pascal (name : String) :
    (Target.enum name).fileName .pascal =
      Convention.pascal.apply name ++ "Enum" ++ schemaEnding :=
  fileName_eq_stemOf_append .pascal .enum name

theorem IsBare.pascal {name : String} (h : IsBare name) :
    IsBare (Convention.pascal.apply name) where
  slash_notMem := Naming.slash_notMem_apply .pascal h.slash_notMem
  dot_notMem :=
    Naming.notMem_apply .pascal (by decide) (by decide) (by decide) (by decide) h.dot_notMem
  hash_notMem :=
    Naming.notMem_apply .pascal (by decide) (by decide) (by decide) (by decide) h.hash_notMem

theorem IsBare.append {name other : String} (h : IsBare name) (h' : IsBare other) :
    IsBare (name ++ other) where
  slash_notMem := by simp [h.slash_notMem, h'.slash_notMem]
  dot_notMem := by simp [h.dot_notMem, h'.dot_notMem]
  hash_notMem := by simp [h.hash_notMem, h'.hash_notMem]

theorem IsOutputFile.isBare (h : IsOutputFile run directory stem)
    (hnames : ∀ kind, ∀ name ∈ run.names kind, IsBare name) : IsBare stem := by
  cases h with
  | object hname => exact (hnames .object _ hname).pascal
  | enum hname => exact (hnames .enum _ hname).pascal.append ⟨by decide, by decide, by decide⟩
  | scaffold hstem =>
    have hall : ∀ stem ∈ scaffoldStems,
        '/' ∉ stem.toList ∧ '.' ∉ stem.toList ∧ '#' ∉ stem.toList := by decide
    obtain ⟨hslash, hdot, hhash⟩ := hall stem hstem
    exact ⟨hslash, hdot, hhash⟩

/-! ### The output directory -/

/-- What a run has left in an output directory that was empty: a document for every object, those of
the scaffold, and no file but its own. -/
structure Delivered (dialect : Json) (output : Path) (run : Run) (tree' : FileTree)
    (base : Location) : Prop where
  look_eq : tree'.look output = .ok (some .directory)
  locate_eq : tree'.locate output = .ok base
  isOutputFile : ∀ rest bytes, rest ≠ [] → (base ++ rest, .file bytes) ∈ tree'.nodes →
    ∃ directory stem, IsOutputFile run directory stem ∧ rest = directory ++ [stem ++ schemaEnding]
  object : ∀ name ∈ run.objectNames, ∃ document, Holds tree' (output.within
    (directoryParts .object ++ [Convention.pascal.apply name ++ schemaEnding])) document
  message : Holds tree' (output.within ["message" ++ schemaEnding]) (Schema.messageDocument dialect)
  metadata : Holds tree' (output.within ["metadata" ++ schemaEnding])
    (Schema.metadataDocument dialect)
  aggregator : Holds tree' (output.within ["datamodelObjects" ++ schemaEnding])
    (Schema.aggregatorDocument dialect Convention.pascal.apply run.objectNames)

namespace Completed

variable (h : Completed settings input output tree tree' run used sources)
include h

/-- A file below the output directory is one that was written, as nothing was there before. -/
theorem exists_isOutputFile (hconvention : used.convention = .pascal)
    (hslash : ∀ kind, ∀ name ∈ run.names kind, '/' ∉ name.toList)
    (hvacant : tree.Vacant (output.place tree.here)) (hbase : tree'.locate output = .ok base)
    (hrest : rest ≠ []) {bytes : List UInt8}
    (hfile : tree'.node? (base ++ rest) = some (.file bytes)) :
    ∃ directory stem, IsOutputFile run directory stem ∧
      rest = directory ++ [stem ++ schemaEnding] := by
  have hwalk := (FileTree.locate_eq_ok_iff.mp hbase).2
  have hplace : base = output.place tree.here := by
    rw [Files.eq_place_of_locate hbase, h.allWritten.keptIn.here_eq]
  have hwritten : ∃ file ∈ filesOf used output (typesRead used.convention tree sources),
      tree'.locate file.1 = .ok (base ++ rest) := by
    by_contra hnot
    push Not at hnot
    rcases h.allWritten.others _ hnot with hsame | ⟨-, hdirectory⟩
    · rw [hfile, hplace, hvacant rest hrest] at hsame
      cases hsame
    · rw [hfile] at hdirectory
      cases hdirectory
  obtain ⟨file, hmem, hlocate⟩ := hwritten
  rcases of_mem_filesOf hmem with ⟨kind, name, type, htype, rfl⟩ | ⟨scaffold, hscaffold, hpath⟩
  · have hname : name ∈ run.names kind := h.mem_names_iff.mpr ⟨type, htype⟩
    rw [hconvention] at hlocate
    obtain ⟨base', hbase', hlocation⟩ :=
      exists_walk_of_locate_outputPath (hslash kind name hname) hlocate
    obtain rfl := Except.ok.inj (hwalk.symm.trans hbase')
    have hparts := List.append_cancel_left hlocation
    cases kind with
    | object =>
      exact ⟨_, _, .object hname, hparts⟩
    | enum => exact ⟨_, _, .enum hname, by rw [hparts, ← fileName_enum_pascal]; rfl⟩
  · rw [hpath] at hlocate
    obtain ⟨base', hbase', hlocation⟩ := exists_walk_of_locate_scaffold hscaffold hlocate
    obtain rfl := Except.ok.inj (hwalk.symm.trans hbase')
    rw [scaffoldNames_eq_map] at hscaffold
    obtain ⟨stem, hstem, rfl⟩ := List.mem_map.mp hscaffold
    exact ⟨_, _, .scaffold hstem, List.append_cancel_left hlocation⟩

theorem holds_scaffold_within (hscaffold : used.scaffold.isTruthy = true)
    (hstem : stem ∈ scaffoldStems) {document : Json}
    (hfile : (output.child (stem ++ schemaEnding), document) ∈
      scaffoldFiles used output run.objectNames) :
    Holds tree' (output.within [stem ++ schemaEnding]) document := by
  have hname : stem ++ schemaEnding ∈ scaffoldNames := by
    rw [scaffoldNames_eq_map]
    exact List.mem_map_of_mem hstem
  have hobjects : (registered used.dialect .object (typesRead used.convention tree sources)).keys =
      run.objectNames := (h.names_eq .object).symm
  have hholds := h.holds_scaffold hscaffold
  rw [hobjects] at hholds
  rw [← (child_scaffold output hname).1]
  exact hholds _ hfile

end Completed

theorem exists_outputDirectory (htree : tree.WellFormed)
    (hrun : convertDirectory settings stamp input output tree = .ok run tree') :
    ∃ base, tree'.locate output = .ok base ∧ tree'.node? base = some .directory := by
  obtain ⟨_, _, -, -, -, between, hdirectories, hwrite⟩ := convertDirectory_eq_ok hrun
  obtain ⟨-, hbetween, hdirectory, -⟩ := createDirectories_eq_ok htree hdirectories
  have hkept := (allWritten_of_writeAll hbetween hwrite).keptIn
  exact Files.isDirectory_iff.mp (hkept.isDirectory hdirectory)

/-- A run in capitalised words, with the scaffold, into an empty output directory. -/
theorem exists_delivered (htree : tree.WellFormed) (hused : settings.inUse = .ok used)
    (hconvention : used.convention = .pascal) (hscaffold : used.scaffold.isTruthy = true)
    (hvacant : tree.Vacant (output.place tree.here))
    (hslash : ∀ kind, ∀ name ∈ run.names kind, '/' ∉ name.toList)
    (hrun : convertDirectory settings stamp input output tree = .ok run tree') :
    ∃ base, Delivered used.dialect output run tree' base := by
  obtain ⟨used', sources, h⟩ := exists_completed htree hrun
  obtain rfl := Except.ok.inj (hused.symm.trans h.inUse)
  obtain ⟨base, hlocate, hnode⟩ := exists_outputDirectory htree hrun
  have hdistinct : tree'.DistinctBelow base := by
    rw [Files.eq_place_of_locate hlocate, h.allWritten.keptIn.here_eq]
    exact property_of_run (Files.stable_distinctBelow _) hvacant.distinctBelow hrun
  have hfiles : "message" ++ schemaEnding = Schema.messageFile ∧
      "metadata" ++ schemaEnding = Schema.metadataFile ∧
      "datamodelObjects" ++ schemaEnding = Schema.aggregatorFile := by decide
  have hmessage : Holds tree' (output.within ["message" ++ schemaEnding])
      (Schema.messageDocument used.dialect) := by
    refine h.holds_scaffold_within hscaffold (by decide) ?_
    rw [hfiles.1]
    exact List.mem_cons_self
  have hnull : output.hasNull = false := by
    obtain ⟨text, hbytes, -⟩ := hmessage
    have hwithin := (FileTree.readBytes_eq_ok_iff.mp hbytes).1
    rw [Path.hasNull, Path.within, List.any_append, Bool.or_eq_false_iff] at hwithin
    exact hwithin.1
  refine ⟨base, FileTree.look_eq_some_iff.mpr ⟨hnull, base, hlocate, hnode⟩, hlocate, ?_, ?_,
    hmessage, ?_, ?_⟩
  · intro rest bytes hrest hentry
    exact h.exists_isOutputFile hconvention hslash hvacant hlocate hrest
      (hdistinct.node?_eq_some hrest hentry)
  · intro name hname
    have hregistered : name ∈ run.names .object := hname
    obtain ⟨other, -, type, -, -, hobject⟩ := h.exists_holds hslash hregistered
    rw [outputPath_eq_within (hslash .object name hname), hconvention] at hobject
    exact ⟨_, hobject⟩
  · refine h.holds_scaffold_within hscaffold (by decide) ?_
    rw [hfiles.2.1]
    exact List.mem_cons_of_mem _ List.mem_cons_self
  · refine h.holds_scaffold_within hscaffold (by decide) ?_
    rw [hfiles.2.2, ← hconvention]
    exact List.mem_cons_of_mem _ (List.mem_cons_of_mem _ List.mem_cons_self)

/-! ### What can be read -/

theorem exists_within_of_mem_filesOf {types : List Raml.Declaration} {file : Path × Json}
    (hslash : ∀ type ∈ types, '/' ∉ type.name.toList) (hfile : file ∈ filesOf used output types) :
    ∃ names, ".." ∉ names ∧ file.1 = output.within names := by
  rcases of_mem_filesOf hfile with ⟨kind, name, type, hlast, rfl⟩ | ⟨scaffold, hscaffold, hpath⟩
  · obtain ⟨htype, -, rfl⟩ := of_lastType?_eq_some hlast
    have hname := hslash type htype
    exact ⟨_, up_notMem_outputParts hname kind, outputPath_eq_within hname kind⟩
  · obtain ⟨hchild, hup⟩ := child_scaffold output hscaffold
    exact ⟨[scaffold], hup, hpath.trans hchild⟩

/-- What a run has changed lies on the way of a path that leads on from the output directory and
could be followed. -/
theorem exists_onWay_of_run {location : Location} (htree : tree.WellFormed)
    (hslash : ∀ kind, ∀ name ∈ run.names kind, '/' ∉ name.toList)
    (hrun : convertDirectory settings stamp input output tree = .ok run tree')
    (hchanged : tree'.node? location ≠ tree.node? location) :
    ∃ names, ".." ∉ names ∧ (output.within names).isTooLong = false ∧
      OnWay tree.here (output.within names) location := by
  obtain ⟨used, sources, hused, hsources, -, between, hdirectories, hwrite⟩ :=
    convertDirectory_eq_ok hrun
  have h := completed_of_run htree hused hsources hrun
  obtain ⟨-, hbetween, houtput, hkinds⟩ := createDirectories_eq_ok htree hdirectories
  have hmade := createDirectories_madeOnWay htree output
  have hwritten := writeAll_changed hbetween ⟨used.output, stamp⟩
    (filesOf used output (typesRead used.convention tree sources))
  rw [after_of_eq_ok hdirectories] at hmade
  rw [after_of_eq_ok hwrite, hmade.here_eq] at hwritten
  have htypes : ∀ type ∈ typesRead used.convention tree sources, '/' ∉ type.name.toList :=
    fun type htype => hslash _ _ (h.mem_names_iff.mpr (exists_lastType?_of_mem htype))
  have hshort {path : Path} (hpath : between.isDirectory path = true) : path.isTooLong = false := by
    obtain ⟨location, hlocate, -⟩ := Files.isDirectory_iff.mp hpath
    exact (FileTree.locate_eq_ok_iff.mp hlocate).1
  by_cases hfile : ∃ file ∈ filesOf used output (typesRead used.convention tree sources),
      OnWay tree.here file.1 location
  · obtain ⟨file, hmem, hway⟩ := hfile
    obtain ⟨names, hup, hpath⟩ := exists_within_of_mem_filesOf htypes hmem
    obtain ⟨place, hlocate⟩ := h.allWritten.locates file hmem
    rw [hpath] at hway hlocate
    exact ⟨names, hup, (FileTree.locate_eq_ok_iff.mp hlocate).1, hway⟩
  · have hsame := hwritten.node_eq location hfile
    rcases hmade.node location with heq | ⟨hway | ⟨kind, hway⟩, -⟩
    · exact absurd (hsame.trans heq) hchanged
    · refine ⟨[], List.not_mem_nil, ?_⟩
      rw [Path.within, List.append_nil]
      exact ⟨hshort houtput, hway⟩
    · refine ⟨directoryParts kind, by cases kind <;> decide, ?_⟩
      rw [← child_directoryOf]
      exact ⟨hshort (hkinds kind), hway⟩

/-! ### What is loaded -/

section Listing

variable {dialect document : Json} {schema : LoadedSchema}

theorem endsWith_fileName (stem : String) :
    Text.endsWith (stem ++ schemaEnding) References.jsonEnding = true := by
  have hending : References.jsonEnding.toList <:+ schemaEnding.toList := by decide
  rw [Text.endsWith, List.isSuffixOf_iff_suffix, String.toList_append]
  exact hending.trans (List.suffix_append _ _)

theorem up_ne_fileName (stem : String) : ".." ≠ stem ++ schemaEnding := by
  intro heq
  have hlength := congrArg (fun text => text.toList.length) heq
  have hending : schemaEnding.toList.length = 12 := by decide
  simp [hending] at hlength

variable (h : Delivered dialect output run tree' base)
include h

/-- A document that is held is loaded. -/
theorem Delivered.mem_listing (hup : ".." ∉ directory)
    (hholds : Holds tree' (output.within (directory ++ [stem ++ schemaEnding])) document) :
    (directory ++ [stem ++ schemaEnding],
      .ofDocument output (directory ++ [stem ++ schemaEnding]) document) ∈
        listing tree' output base := by
  obtain ⟨text, hbytes, hread⟩ := hholds
  obtain ⟨-, location, hlocate, hnode⟩ := FileTree.readBytes_eq_ok_iff.mp hbytes
  have hnames : ".." ∉ directory ++ [stem ++ schemaEnding] := by
    simpa [hup] using up_ne_fileName stem
  obtain ⟨base', hbase', rfl⟩ := FileTree.exists_walk_of_locate_within hnames hlocate
  obtain rfl := Except.ok.inj ((FileTree.locate_eq_ok_iff.mp h.locate_eq).2.symm.trans hbase')
  have hentry : (base ++ (directory ++ [stem ++ schemaEnding]),
      Files.Node.file (Text.Utf8.encode text)) ∈ tree'.nodes := by
    refine Entries.mem_of_get?_eq_some ?_
    rwa [FileTree.node?, if_neg (by simp)] at hnode
  refine References.mem_listing_iff.mpr
    ⟨_, FileTree.mem_nodesBelow_iff.mpr ⟨by simp, hentry⟩, References.loadNode_eq_some_iff.mpr ?_⟩
  refine ⟨_, document, rfl, ?_, (FileTree.locate_eq_ok_iff.mp hlocate).1, ?_, rfl⟩
  · simpa using endsWith_fileName stem
  · rw [References.documentOfBytes?, Text.Utf8.decode_eq_ok_iff.mpr rfl]
    exact hread

theorem Delivered.mem_listing_scaffold
    (hholds : Holds tree' (output.within [stem ++ schemaEnding]) document) :
    ([stem ++ schemaEnding], .ofDocument output [stem ++ schemaEnding] document) ∈
      listing tree' output base := h.mem_listing List.not_mem_nil hholds

/-- What is loaded comes from a file of the run. -/
theorem Delivered.exists_isOutputFile (hentry : (rest, schema) ∈ listing tree' output base) :
    ∃ directory stem document, IsOutputFile run directory stem ∧
      rest = directory ++ [stem ++ schemaEnding] ∧
      schema = .ofDocument output (directory ++ [stem ++ schemaEnding]) document := by
  obtain ⟨node, hnode, hload⟩ := References.mem_listing_iff.mp hentry
  obtain ⟨hrest, hnode⟩ := FileTree.mem_nodesBelow_iff.mp hnode
  obtain ⟨bytes, document, rfl, -, -, -, rfl⟩ := References.loadNode_eq_some_iff.mp hload
  obtain ⟨directory, stem, hfile, rfl⟩ := h.isOutputFile rest bytes hrest hnode
  exact ⟨directory, stem, document, hfile, rfl, rfl⟩

end Listing

/-- An output directory that was empty can be loaded, unless double dots lead to it: on their way
back they may have passed a directory whose name is too long to be read from there. -/
theorem exists_load_of_run {dialect : Json} (htree : tree.WellFormed)
    (hvacant : tree.Vacant (output.place tree.here))
    (hslash : ∀ kind, ∀ name ∈ run.names kind, '/' ∉ name.toList)
    (hrun : convertDirectory settings stamp input output tree = .ok run tree')
    (hup : ".." ∉ output.parts) (h : Delivered dialect output run tree' base) :
    ∃ loaded, References.load tree' output = .ok loaded := by
  obtain ⟨used, sources, hdone⟩ := exists_completed htree hrun
  have hbase : base = output.place tree.here := by
    rw [Files.eq_place_of_locate h.locate_eq, hdone.allWritten.keptIn.here_eq]
  refine References.exists_load h.look_eq h.locate_eq fun _ hrest => ?_
  obtain ⟨⟨rest, node⟩, hentry, rfl⟩ := List.mem_map.mp hrest
  obtain ⟨hne, hnode⟩ := FileTree.mem_nodesBelow_iff.mp hentry
  have hchanged : tree'.node? (base ++ rest) ≠ tree.node? (base ++ rest) := by
    rw [hbase, hvacant rest hne, ← hbase, FileTree.node?, if_neg (by simp [hne]), ne_eq,
      Entries.get?_eq_none_iff, not_not]
    exact List.mem_map_of_mem hnode
  obtain ⟨names, hnames, hshort, hway⟩ := exists_onWay_of_run htree hslash hrun hchanged
  rw [hbase] at hway
  rcases hway.exists_take hnames with hon | ⟨count, hlocation⟩
  · exact absurd hon (Files.not_onWay_below hup hne)
  · obtain rfl := List.append_cancel_left hlocation
    rw [← List.take_append_drop count names] at hshort
    exact Path.isTooLong_of_append hne hshort

end RamlSchema.Conversion
