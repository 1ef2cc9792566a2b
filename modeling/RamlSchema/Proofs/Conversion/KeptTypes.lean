import RamlSchema.Proofs.Conversion.Places
import RamlSchema.Proofs.Conversion.Validation

/-!
# Types that keep their files

A registered type is found in its file unless a later file is written to the same place. Types of
one kind whose names become the same in the convention are written to one file, and only the last of
them is left; in the aggregator, objects whose names have the same words share an entry.
-/

namespace RamlSchema.Conversion

open Files (FileTree Path)
open Raml (Declaration Target)
open Report (Kind Run)
open Schema (closedObject document enumSchema objectSchema referenceJson)

/-! ### Documents tell types apart -/

theorem member?_title_document (dialect : Json) (type : Declaration) :
    (document dialect type).member? "title" = some (.str type.name) := by
  unfold document
  split <;> rfl

theorem member?_type_document (dialect : Json) (type : Declaration) :
    (document dialect type).member? "type" =
      some (.str (if type.isEnum then "string" else "object")) := by
  unfold document
  split <;> rfl

theorem document_ne_of_name_ne (dialect : Json) {type other : Declaration}
    (hname : type.name ≠ other.name) : document dialect type ≠ document dialect other := by
  intro heq
  have htitle := congrArg (Json.member? "title") heq
  rw [member?_title_document, member?_title_document] at htitle
  exact hname (by simpa using htitle)

theorem document_ne_of_kind_ne (dialect : Json) {type other : Declaration}
    (hkind : kindOf type ≠ kindOf other) : document dialect type ≠ document dialect other := by
  intro heq
  have htype := congrArg (Json.member? "type") heq
  rw [member?_type_document, member?_type_document] at htype
  refine hkind ?_
  unfold kindOf
  cases hisEnum : type.isEnum <;> cases hother : other.isEnum <;> simp_all

/-- The document of a type does not name the same members as a scaffold document does. -/
theorem document_ne_closedObject (dialect : Json) (type : Declaration) (title : String)
    (properties : List (String × Json)) (required : List String) :
    document dialect type ≠ closedObject dialect title properties required := by
  intro heq
  unfold document at heq
  split at heq
  case isTrue => simp [enumSchema, closedObject] at heq
  case isFalse => simp [objectSchema, closedObject] at heq

/-! ### The files of some types -/

variable {settings : Settings} {output : Path} {types : List Declaration}

/-- The files of one kind hold different documents, since these have different titles. -/
theorem pairwise_schemaFiles (convention : Convention) (dialect : Json) (kind : Kind) :
    (schemaFiles convention output kind (registered dialect kind types)).Pairwise
      fun file later => later.2 ≠ file.2 := by
  rw [schemaFiles, List.pairwise_map]
  have hkeys := List.pairwise_map.mp (nodupKeys_registered dialect kind types)
  refine hkeys.imp_of_mem fun {entry later} hentry hlater hne heq => hne ?_
  obtain ⟨type, htype, hschema⟩ := mem_registered_iff.mp hentry
  obtain ⟨type', htype', hschema'⟩ := mem_registered_iff.mp hlater
  obtain ⟨-, -, hname⟩ := of_lastType?_eq_some htype
  obtain ⟨-, -, hname'⟩ := of_lastType?_eq_some htype'
  by_contra hne
  rw [← hname, ← hname'] at hne
  refine document_ne_of_name_ne dialect hne ?_
  rw [← hschema, ← hschema']
  exact heq.symm

theorem exists_closedObject_of_mem_scaffoldFiles {names : List String} {file : Path × Json}
    (hfile : file ∈ scaffoldFiles settings output names) :
    ∃ title properties required,
      file.2 = closedObject settings.dialect title properties required := by
  rw [scaffoldFiles] at hfile
  simp only [List.mem_cons, List.not_mem_nil, or_false] at hfile
  rcases hfile with rfl | rfl | rfl <;> exact ⟨_, _, _, rfl⟩

theorem map_fst_scaffoldFiles (settings : Settings) (output : Path) (names : List String) :
    (scaffoldFiles settings output names).map Prod.fst = scaffoldNames.map output.child := rfl

theorem pairwise_scaffoldFiles (settings : Settings) (output : Path) (names : List String) :
    (scaffoldFiles settings output names).Pairwise fun file later => later.2 ≠ file.2 := by
  have hne : ∀ {title title' : String} {properties properties' required required'},
      title ≠ title' → closedObject settings.dialect title properties required ≠
        closedObject settings.dialect title' properties' required' := by
    intro title title' properties properties' required required' hne heq
    have htitle := congrArg (Json.member? "title") heq
    exact hne (by simpa [closedObject, Json.member?, Entries.get?] using htitle)
  simp only [scaffoldFiles, List.pairwise_cons, List.mem_cons, List.not_mem_nil, or_false,
    forall_eq_or_imp, forall_eq, IsEmpty.forall_iff, implies_true, List.Pairwise.nil, and_true]
  exact ⟨⟨hne (by decide), hne (by decide)⟩, hne (by decide)⟩

theorem pairwise_filesOf : (filesOf settings output types).Pairwise
    fun file later => later.2 ≠ file.2 := by
  rw [filesOf, List.pairwise_append, List.pairwise_append]
  refine ⟨⟨pairwise_schemaFiles _ _ _, pairwise_schemaFiles _ _ _, ?_⟩, ?_, ?_⟩
  · intro file hfile later hlater
    obtain ⟨name, type, htype, rfl⟩ := mem_schemaFiles_iff.mp hfile
    obtain ⟨name', type', htype', rfl⟩ := mem_schemaFiles_iff.mp hlater
    refine document_ne_of_kind_ne _ ?_
    rw [(of_lastType?_eq_some htype).2.1, (of_lastType?_eq_some htype').2.1]
    decide
  · split
    · exact pairwise_scaffoldFiles _ _ _
    · exact .nil
  · intro file hfile later hlater
    have hdocument : ∃ type, file.2 = document settings.dialect type := by
      rcases List.mem_append.mp hfile with hfile | hfile <;>
        obtain ⟨name, type, htype, rfl⟩ := mem_schemaFiles_iff.mp hfile <;> exact ⟨type, rfl⟩
    split at hlater
    · obtain ⟨title, properties, required, hclosed⟩ :=
        exists_closedObject_of_mem_scaffoldFiles hlater
      obtain ⟨type, htype⟩ := hdocument
      rw [hclosed, htype]
      exact (document_ne_closedObject _ _ _ _ _).symm
    · exact absurd hlater List.not_mem_nil

/-! ### Runs -/

variable {tree tree' : FileTree} {run : Run} {used : Settings} {input : Path}
  {sources : List Path}

def outputPaths (settings : Settings) (output : Path) (run : Run) : List Path :=
  run.enumNames.map (outputPath settings.convention output .enum) ++
    run.objectNames.map (outputPath settings.convention output .object) ++
    if settings.scaffold.isTruthy then scaffoldNames.map output.child else []

/-- No two files of a run lie in the same place of the tree. -/
def DistinctPlaces (settings : Settings) (output : Path) (run : Run) (tree : FileTree) : Prop :=
  (outputPaths settings output run).Pairwise fun path later => tree.locate later ≠ tree.locate path

/-- Every registered name has a file that holds the schema of its last type. -/
def TypesKept (settings : Settings) (output : Path) (types : List Declaration) (run : Run)
    (tree : FileTree) : Prop :=
  ∀ kind, ∀ name ∈ run.names kind, ∃ type, lastType? kind name types = some type ∧
    (document settings.dialect type).member? "title" = some (.str name) ∧
    Holds tree (outputPath settings.convention output kind name) (document settings.dialect type)

/-- The aggregator file refers to the file of every object, under the words of its name. -/
def ObjectsListed (settings : Settings) (output : Path) (run : Run) (tree : FileTree) : Prop :=
  ∃ properties, Holds tree (output.child Schema.aggregatorFile)
      (closedObject settings.dialect "Datamodel Objecten" properties []) ∧
    ∀ name ∈ run.objectNames, Entries.get? properties (Convention.pascal.apply name) =
      some (referenceJson ("./" ++ Schema.objectDirectory ++ "/" ++
        (Target.object name).fileName settings.convention))

theorem Completed.map_fst_filesOf
    (h : Completed settings input output tree tree' run used sources) :
    (filesOf used output (typesRead used.convention tree sources)).map Prod.fst =
      outputPaths used output run := by
  have henums : run.enumNames = _ := h.names_eq .enum
  have hobjects : run.objectNames = _ := h.names_eq .object
  rw [filesOf, outputPaths, henums, hobjects, List.map_append, List.map_append]
  congr 1
  · simp [schemaFiles, Entries.keys, Function.comp_def]
  · split <;> rfl

theorem Completed.mem_names_iff
    (h : Completed settings input output tree tree' run used sources) {kind : Kind}
    {name : String} :
    name ∈ run.names kind ↔
      ∃ type, lastType? kind name (typesRead used.convention tree sources) = some type := by
  rw [h.names_eq, Entries.mem_keys_iff, get?_registered]
  simp

theorem Completed.typesKept_iff
    (h : Completed settings input output tree tree' run used sources) :
    TypesKept used output (typesRead used.convention tree sources) run tree' ↔
      ∀ kind, ∀ file ∈ schemaFiles used.convention output kind
        (registered used.dialect kind (typesRead used.convention tree sources)),
        Holds tree' file.1 file.2 := by
  constructor
  · intro hkept kind file hfile
    obtain ⟨name, type, htype, rfl⟩ := mem_schemaFiles_iff.mp hfile
    obtain ⟨type', htype', -, hholds⟩ := hkept kind name (h.mem_names_iff.mpr ⟨type, htype⟩)
    rw [htype] at htype'
    obtain rfl := Option.some_inj.mp htype'
    exact hholds
  · intro hholds kind name hname
    obtain ⟨type, htype⟩ := h.mem_names_iff.mp hname
    have hfile := hholds kind
      (outputPath used.convention output kind name, document used.dialect type)
      (mem_schemaFiles_iff.mpr ⟨name, type, htype, rfl⟩)
    refine ⟨type, htype, ?_, hfile⟩
    rw [member?_title_document, (of_lastType?_eq_some htype).2.2]

theorem Completed.distinctPlaces_iff
    (h : Completed settings input output tree tree' run used sources) :
    DistinctPlaces used output run tree' ↔
      ∀ file ∈ filesOf used output (typesRead used.convention tree sources),
        Holds tree' file.1 file.2 := by
  rw [h.allWritten.forall_holds_iff pairwise_filesOf, DistinctPlaces, ← h.map_fst_filesOf,
    List.pairwise_map]

theorem Completed.locates
    (h : Completed settings input output tree tree' run used sources) {path : Path}
    (hpath : path ∈ outputPaths used output run) :
    ∃ location, tree'.locate path = .ok location := by
  rw [← h.map_fst_filesOf] at hpath
  obtain ⟨file, hfile, rfl⟩ := List.mem_map.mp hpath
  exact h.allWritten.locates file hfile

theorem Completed.pairwise_scaffold
    (h : Completed settings input output tree tree' run used sources)
    (hscaffold : used.scaffold.isTruthy = true) :
    (scaffoldNames.map output.child).Pairwise
      fun path later => tree'.locate later ≠ tree'.locate path := by
  have hlocates : ∀ file ∈ scaffoldNames,
      ∃ location, tree'.locate (output.child file) = .ok location := by
    intro file hfile
    refine h.locates (List.mem_append_right _ ?_)
    rw [if_pos hscaffold]
    exact List.mem_map_of_mem hfile
  have hnames : scaffoldNames.Pairwise (· ≠ ·) := by decide
  rw [List.pairwise_map]
  refine hnames.imp_of_mem fun {file later} hfile hlater hne heq => hne ?_
  obtain ⟨location, hlocate⟩ := hlocates file hfile
  rw [hlocate] at heq
  obtain ⟨base, hbase, hlocation⟩ := exists_walk_of_locate_scaffold hfile hlocate
  obtain ⟨base', hbase', hlocation'⟩ := exists_walk_of_locate_scaffold hlater heq
  rw [hbase] at hbase'
  obtain rfl := Except.ok.inj hbase'
  simpa using hlocation.symm.trans hlocation'

/-- Scaffold files are written last, each under a name of its own. -/
theorem Completed.holds_scaffold
    (h : Completed settings input output tree tree' run used sources)
    (hscaffold : used.scaffold.isTruthy = true) :
    ∀ file ∈ scaffoldFiles used output
        (registered used.dialect .object (typesRead used.convention tree sources)).keys,
      Holds tree' file.1 file.2 := by
  intro file hfile
  obtain ⟨before, after, hsplit⟩ := List.append_of_mem hfile
  have hplaces := h.pairwise_scaffold hscaffold
  have hdistinct := pairwise_scaffoldFiles used output
    (registered used.dialect .object (typesRead used.convention tree sources)).keys
  rw [← map_fst_scaffoldFiles used output
    (registered used.dialect .object (typesRead used.convention tree sources)).keys,
    List.pairwise_map, pairwise_iff_forall_append] at hplaces
  rw [pairwise_iff_forall_append] at hdistinct
  obtain ⟨front, hfront⟩ : ∃ front, filesOf used output (typesRead used.convention tree sources) =
      front ++ scaffoldFiles used output
        (registered used.dialect .object (typesRead used.convention tree sources)).keys :=
    ⟨_, by rw [filesOf, if_pos hscaffold]⟩
  have hsplit' := hfront
  rw [hsplit, ← List.append_assoc] at hsplit'
  exact (h.allWritten.holds_iff hsplit' (hdistinct before file after hsplit)).mpr
    (hplaces before file after hsplit)

theorem Completed.distinctPlaces_iff_typesKept
    (h : Completed settings input output tree tree' run used sources) :
    DistinctPlaces used output run tree' ↔
      TypesKept used output (typesRead used.convention tree sources) run tree' := by
  rw [h.distinctPlaces_iff, h.typesKept_iff, filesOf]
  constructor
  · intro hholds kind file hfile
    refine hholds file (List.mem_append_left _ (List.mem_append.mpr ?_))
    cases kind with
    | enum => exact .inl hfile
    | object => exact .inr hfile
  · intro hholds file hfile
    rw [List.mem_append, List.mem_append] at hfile
    rcases hfile with (hfile | hfile) | hfile
    · exact hholds .enum file hfile
    · exact hholds .object file hfile
    · split at hfile
      case isTrue hscaffold => exact h.holds_scaffold hscaffold file hfile
      case isFalse => exact absurd hfile List.not_mem_nil

/-- The aggregator refers to every object exactly if objects that share an entry share a file. -/
theorem Completed.objectsListed_iff
    (h : Completed settings input output tree tree' run used sources)
    (hscaffold : used.scaffold.isTruthy = true) :
    ObjectsListed used output run tree' ↔
      ∀ name ∈ run.objectNames, ∀ other ∈ run.objectNames,
        Convention.pascal.apply name = Convention.pascal.apply other →
          (Target.object name).fileName used.convention =
            (Target.object other).fileName used.convention := by
  have hobjects : (registered used.dialect .object (typesRead used.convention tree sources)).keys =
      run.objectNames := (h.names_eq .object).symm
  have hscaffolds := h.holds_scaffold hscaffold
  rw [hobjects] at hscaffolds
  have haggregator : Holds tree' (output.child Schema.aggregatorFile)
      (Schema.aggregatorDocument used.dialect used.convention.apply run.objectNames) :=
    hscaffolds (output.child Schema.aggregatorFile, _)
      (List.mem_cons_of_mem _ (List.mem_cons_of_mem _ List.mem_cons_self))
  -- The aggregator is one of the last files written, so what its file holds is known.
  have hlisted : ObjectsListed used output run tree' ↔
      ∀ name ∈ run.objectNames, (Entries.ofList (run.objectNames.map fun name =>
        (Convention.pascal.apply name,
          referenceJson ("./" ++ Schema.objectDirectory ++ "/" ++
            (Target.object name).fileName used.convention)))).get?
          (Convention.pascal.apply name) =
        some (referenceJson ("./" ++ Schema.objectDirectory ++ "/" ++
          (Target.object name).fileName used.convention)) := by
    constructor
    · rintro ⟨properties, hholds, hproperties⟩
      have heq := hholds.unique haggregator
      simp only [Schema.aggregatorDocument, closedObject, Json.obj.injEq, List.cons.injEq,
        Prod.mk.injEq, true_and, and_true] at heq
      rw [heq] at hproperties
      exact hproperties
    · exact fun hproperties => ⟨_, haggregator, hproperties⟩
  rw [hlisted, Entries.forall_get?_ofList_map_iff]
  simp [referenceJson]

theorem outputPath_eq_of_fileName_eq {convention : Convention} {kind : Kind} {name other : String}
    (hfile : (targetOf kind name).fileName convention = (targetOf kind other).fileName convention) :
    outputPath convention output kind name = outputPath convention output kind other := by
  rw [outputPath, outputPath, hfile]

theorem TypesKept.eq_of_fileName_eq (h : TypesKept settings output types run tree) (kind : Kind)
    {name other : String} (hname : name ∈ run.names kind) (hother : other ∈ run.names kind)
    (hfile : (targetOf kind name).fileName settings.convention =
      (targetOf kind other).fileName settings.convention) : name = other := by
  obtain ⟨type, -, htitle, hholds⟩ := h kind name hname
  obtain ⟨type', -, htitle', hholds'⟩ := h kind other hother
  rw [outputPath_eq_of_fileName_eq hfile] at hholds
  rw [hholds.unique hholds', htitle'] at htitle
  simpa using htitle.symm

theorem fileName_eq_iff {convention : Convention} {kind : Kind} {name other : String} :
    (targetOf kind name).fileName convention = (targetOf kind other).fileName convention ↔
      convention.apply name = convention.apply other := by
  cases kind <;> simp [targetOf, Target.fileName, Target.fileNameBy]

theorem outputPath_mem_outputPaths {kind : Kind} {name : String} (hname : name ∈ run.names kind) :
    outputPath used.convention output kind name ∈ outputPaths used output run := by
  refine List.mem_append_left _ (List.mem_append.mpr ?_)
  cases kind with
  | enum => exact .inl (List.mem_map_of_mem hname)
  | object => exact .inr (List.mem_map_of_mem hname)

theorem Completed.locates_outputPath
    (h : Completed settings input output tree tree' run used sources) {kind : Kind} {name : String}
    (hname : name ∈ run.names kind) :
    ∃ location, tree'.locate (outputPath used.convention output kind name) = .ok location :=
  h.locates (outputPath_mem_outputPaths hname)

theorem Completed.eq_of_locate_eq
    (h : Completed settings input output tree tree' run used sources)
    (hnames : ∀ kind, ∀ name ∈ run.names kind, '/' ∉ name.toList) {kind kind' : Kind}
    {name name' : String} (hname : name ∈ run.names kind) (hname' : name' ∈ run.names kind')
    (heq : tree'.locate (outputPath used.convention output kind' name') =
      tree'.locate (outputPath used.convention output kind name)) :
    kind = kind' ∧ (targetOf kind name).fileName used.convention =
      (targetOf kind' name').fileName used.convention := by
  obtain ⟨location, hlocate⟩ := h.locates_outputPath hname
  exact eq_of_locate_outputPath_eq (hnames kind name hname) (hnames kind' name' hname') hlocate
    (heq.trans hlocate)

/-- No file of a type with a plain name lies in the place of a scaffold file. -/
theorem Completed.locate_scaffold_ne
    (h : Completed settings input output tree tree' run used sources) (kind : Kind)
    {name file : String} (hname : name ∈ run.names kind) (hslash : '/' ∉ name.toList)
    (hfile : file ∈ scaffoldNames) :
    tree'.locate (output.child file) ≠
      tree'.locate (outputPath used.convention output kind name) := by
  intro heq
  obtain ⟨location, hlocate⟩ := h.locates_outputPath hname
  obtain ⟨base, hbase, hlocation⟩ := exists_walk_of_locate_outputPath hslash hlocate
  obtain ⟨base', hbase', hlocation'⟩ :=
    exists_walk_of_locate_scaffold hfile (heq.trans hlocate)
  rw [hbase] at hbase'
  obtain rfl := Except.ok.inj hbase'
  have hparts := congrArg List.length (hlocation.symm.trans hlocation')
  cases kind <;> simp [directoryParts] at hparts

theorem mem_filesOf_of_lastType? {kind : Kind} {name : String} {type : Declaration}
    (htype : lastType? kind name types = some type) :
    (outputPath settings.convention output kind name, document settings.dialect type) ∈
      filesOf settings output types := by
  have hfile : (outputPath settings.convention output kind name, document settings.dialect type) ∈
      schemaFiles settings.convention output kind (registered settings.dialect kind types) :=
    mem_schemaFiles_iff.mpr ⟨name, type, htype, rfl⟩
  rw [filesOf, List.mem_append, List.mem_append]
  cases kind with
  | enum => exact .inl (.inl hfile)
  | object => exact .inl (.inr hfile)

theorem of_mem_filesOf {file : Path × Json} (hfile : file ∈ filesOf settings output types) :
    (∃ kind name type, lastType? kind name types = some type ∧
        file = (outputPath settings.convention output kind name,
          document settings.dialect type)) ∨
      ∃ name ∈ scaffoldNames, file.1 = output.child name := by
  rw [filesOf, List.mem_append, List.mem_append] at hfile
  rcases hfile with (hfile | hfile) | hfile
  · exact .inl ⟨.enum, mem_schemaFiles_iff.mp hfile⟩
  · exact .inl ⟨.object, mem_schemaFiles_iff.mp hfile⟩
  · split at hfile
    case isFalse => exact absurd hfile List.not_mem_nil
    case isTrue =>
      have hpath := List.mem_map_of_mem (f := Prod.fst) hfile
      rw [map_fst_scaffoldFiles] at hpath
      obtain ⟨name, hname, hpath⟩ := List.mem_map.mp hpath
      exact .inr ⟨name, hname, hpath.symm⟩

/-- The file of a registered name holds a type of the name's kind, which is the type of that name
or one that is written to the same file. -/
theorem Completed.exists_holds
    (h : Completed settings input output tree tree' run used sources)
    (hnames : ∀ kind, ∀ name ∈ run.names kind, '/' ∉ name.toList) {kind : Kind} {name : String}
    (hname : name ∈ run.names kind) :
    ∃ other ∈ run.names kind, ∃ type,
      lastType? kind other (typesRead used.convention tree sources) = some type ∧
      (targetOf kind other).fileName used.convention =
        (targetOf kind name).fileName used.convention ∧
      Holds tree' (outputPath used.convention output kind name)
        (document used.dialect type) := by
  obtain ⟨type, htype⟩ := h.mem_names_iff.mp hname
  have hmem : ∃ file ∈ filesOf used output (typesRead used.convention tree sources),
      tree'.locate file.1 = tree'.locate (outputPath used.convention output kind name) :=
    ⟨_, mem_filesOf_of_lastType? htype, rfl⟩
  obtain ⟨before, file, after, hfiles, hfile, hafter⟩ := exists_last_of_exists hmem
  rw [← hfile] at hafter
  have hnull := h.allWritten.hasNull_eq _ (mem_filesOf_of_lastType? htype)
  have hholds := h.allWritten.holds_last hfiles hafter hfile.symm hnull
  have hfileMem : file ∈ filesOf used output (typesRead used.convention tree sources) := by
    simp [hfiles]
  rcases of_mem_filesOf hfileMem with ⟨kind', other, type', htype', rfl⟩ |
    ⟨scaffold, hscaffold, hpath⟩
  · have hother : other ∈ run.names kind' := h.mem_names_iff.mpr ⟨type', htype'⟩
    obtain ⟨rfl, hsame⟩ := h.eq_of_locate_eq hnames hother hname hfile.symm
    exact ⟨other, hother, type', htype', hsame, hholds⟩
  · rw [hpath] at hfile
    exact absurd hfile (h.locate_scaffold_ne kind hname (hnames kind name hname) hscaffold)

theorem Completed.pairwise_outputPath
    (h : Completed settings input output tree tree' run used sources) {kind : Kind}
    (hnames : ∀ kind, ∀ name ∈ run.names kind, '/' ∉ name.toList)
    (hdistinct : ∀ name ∈ run.names kind, ∀ other ∈ run.names kind,
      used.convention.apply name = used.convention.apply other → name = other) :
    ((run.names kind).map (outputPath used.convention output kind)).Pairwise
      fun path later => tree'.locate later ≠ tree'.locate path := by
  have hnodup : (run.names kind).Nodup := by
    rw [h.names_eq]
    exact nodupKeys_registered _ _ _
  rw [List.pairwise_map]
  refine hnodup.imp_of_mem fun {name later} hname hlater hne heq => hne ?_
  obtain ⟨-, hfile⟩ := h.eq_of_locate_eq hnames hname hlater heq
  exact hdistinct name hname later hlater (fileName_eq_iff.mp hfile)

/-- Files of types with plain names lie in different places exactly if the names stay different in
the convention. -/
theorem Completed.distinctPlaces_iff_of_noSlash
    (h : Completed settings input output tree tree' run used sources)
    (hnames : ∀ kind, ∀ name ∈ run.names kind, '/' ∉ name.toList) :
    DistinctPlaces used output run tree' ↔
      ∀ kind, ∀ name ∈ run.names kind, ∀ other ∈ run.names kind,
        used.convention.apply name = used.convention.apply other → name = other := by
  constructor
  · intro hplaces kind name hname other hother heq
    exact (h.distinctPlaces_iff_typesKept.mp hplaces).eq_of_fileName_eq kind hname hother
      (fileName_eq_iff.mpr heq)
  · intro hdistinct
    have hkind := fun kind => h.pairwise_outputPath hnames (hdistinct kind)
    -- Only names of one kind can meet: the kinds have directories of their own, and the scaffold
    -- lies above them.
    rw [DistinctPlaces, outputPaths, List.pairwise_append, List.pairwise_append]
    refine ⟨⟨hkind .enum, hkind .object, ?_⟩, ?_, ?_⟩
    · intro path hpath later hlater heq
      obtain ⟨name, hname, rfl⟩ := List.mem_map.mp hpath
      obtain ⟨name', hname', rfl⟩ := List.mem_map.mp hlater
      have hname : name ∈ run.names .enum := hname
      have hname' : name' ∈ run.names .object := hname'
      obtain ⟨hkinds, -⟩ := h.eq_of_locate_eq hnames hname hname' heq
      cases hkinds
    · split
      case isTrue hscaffold => exact h.pairwise_scaffold hscaffold
      case isFalse => exact .nil
    · intro path hpath later hlater
      split at hlater
      case isFalse => exact absurd hlater List.not_mem_nil
      case isTrue =>
        obtain ⟨file, hfile, rfl⟩ := List.mem_map.mp hlater
        rcases List.mem_append.mp hpath with hpath | hpath <;>
          obtain ⟨name, hname, rfl⟩ := List.mem_map.mp hpath
        · exact h.locate_scaffold_ne .enum hname (hnames .enum name hname) hfile
        · exact h.locate_scaffold_ne .object hname (hnames .object name hname) hfile

/-- **No registered type is lost exactly if no two files of the run lie in one place.** Where names
have no slash, that is so exactly if the names of each kind stay different in the convention. With
the scaffold, the aggregator lists every object exactly if their words stay different, too. -/
theorem registered_types_kept_iff {stamp : String} (htree : tree.WellFormed)
    (hused : settings.inUse = .ok used) (hsources : discover used tree input = .ok sources)
    (hrun : convertDirectory settings stamp input output tree = .ok run tree') :
    (TypesKept used output (typesRead used.convention tree sources) run tree' ∧
        (used.scaffold.isTruthy = true → ObjectsListed used output run tree') ↔
      DistinctPlaces used output run tree' ∧
        (used.scaffold.isTruthy = true → ∀ name ∈ run.objectNames, ∀ other ∈ run.objectNames,
          Convention.pascal.apply name = Convention.pascal.apply other → name = other)) ∧
    ((∀ kind, ∀ name ∈ run.names kind, '/' ∉ name.toList) →
      (DistinctPlaces used output run tree' ↔
        ∀ kind, ∀ name ∈ run.names kind, ∀ other ∈ run.names kind,
          used.convention.apply name = used.convention.apply other → name = other)) := by
  have h := completed_of_run htree hused hsources hrun
  refine ⟨?_, h.distinctPlaces_iff_of_noSlash⟩
  rw [h.distinctPlaces_iff_typesKept]
  refine and_congr_right fun hkept => forall_congr' fun hscaffold => ?_
  rw [h.objectsListed_iff hscaffold]
  refine forall₄_congr fun name hname other hother => forall_congr' fun _ => ?_
  refine ⟨hkept.eq_of_fileName_eq .object hname hother, ?_⟩
  rintro rfl
  rfl

/-! ### Names that differ in case only -/

theorem slash_notMem_names {enums objects : List String} (henums : run.enumNames = enums)
    (hobjects : run.objectNames = objects)
    (hslash : ∀ name ∈ enums ++ objects, '/' ∉ name.toList) (kind : Kind) :
    ∀ name ∈ run.names kind, '/' ∉ name.toList := by
  subst henums hobjects
  cases kind with
  | enum => exact fun name hname => hslash name (List.mem_append_left _ hname)
  | object => exact fun name hname => hslash name (List.mem_append_right _ hname)

def twinText : String := "#%RAML 1.0 Library\ntypes:\n  Foo:\n  foo:\n"

def twinInput : Path := ⟨"", ["in"]⟩

def twinOutput : Path := ⟨"", ["out"]⟩

/-- A directory with one library, which declares `Foo` and `foo`. -/
def twinTree : FileTree where
  nodes := [(["in"], .directory), (["in", "a.raml"], .file (Text.Utf8.encode twinText))]

def twinSettings : Settings := { dialect := .str "d", scaffold := .bool false }

def twinDocument : Json := document twinSettings.dialect { name := "foo" }

set_option maxRecDepth 100000 in
theorem twin_evaluated :
    (discover twinSettings twinTree twinInput).toOption = some [⟨"", ["in", "a.raml"]⟩] ∧
    typesRead twinSettings.convention twinTree [⟨"", ["in", "a.raml"]⟩] =
      [{ name := "Foo" }, { name := "foo" }] ∧
    ((createDirectories twinOutput >>= fun _ => writeUnchecked ⟨twinSettings.output, "0"⟩
        (filesOf twinSettings twinOutput [{ name := "Foo" }, { name := "foo" }])).answer?
      twinTree).isSome := by
  decide +kernel

theorem discover_twinTree :
    discover twinSettings twinTree twinInput = .ok [⟨"", ["in", "a.raml"]⟩] :=
  eq_ok_of_toOption_eq_some twin_evaluated.1

theorem wellFormed_twinTree : twinTree.WellFormed :=
  FileTree.wellFormed_of_forall rfl (by decide)

theorem inUse_twinSettings : twinSettings.inUse = .ok twinSettings := rfl

theorem twin_run : ∃ run tree',
    convertDirectory twinSettings "0" twinInput twinOutput twinTree = .ok run tree' ∧
      run.enumNames = [] ∧ run.objectNames = ["Foo", "foo"] ∧
      Holds tree' (outputPath .pascal twinOutput .object "Foo") twinDocument := by
  obtain ⟨-, htypes, hwrites⟩ := twin_evaluated
  obtain ⟨run, tree', hrun⟩ := exists_run_of_writeUnchecked inUse_twinSettings discover_twinTree
    rfl rfl htypes hwrites
  have hdone := completed_of_run wellFormed_twinTree inUse_twinSettings discover_twinTree hrun
  have hnames := hdone.names_eq
  have hwritten := hdone.allWritten
  rw [htypes] at hnames hwritten
  refine ⟨run, tree', hrun, hnames .enum, hnames .object, ?_⟩
  have hfiles : filesOf twinSettings twinOutput [{ name := "Foo" }, { name := "foo" }] =
      [(outputPath .pascal twinOutput .object "Foo", document (.str "d") { name := "Foo" })] ++
        [(outputPath .pascal twinOutput .object "foo", twinDocument)] := rfl
  exact hwritten.holds_last hfiles (List.forall_mem_nil _) rfl rfl

/-- Two names that are one in the convention: the condition fails, and so a type is lost. -/
theorem registered_types_kept_iff_twin : ∃ run tree', twinTree.WellFormed ∧
    twinSettings.inUse = .ok twinSettings ∧
    discover twinSettings twinTree twinInput = .ok [⟨"", ["in", "a.raml"]⟩] ∧
    convertDirectory twinSettings "0" twinInput twinOutput twinTree = .ok run tree' ∧
    ¬DistinctPlaces twinSettings twinOutput run tree' ∧
    ¬TypesKept twinSettings twinOutput
      (typesRead twinSettings.convention twinTree [⟨"", ["in", "a.raml"]⟩]) run tree' := by
  obtain ⟨run, tree', hrun, henums, hobjects, -⟩ := twin_run
  obtain ⟨hkept, hplaces⟩ := registered_types_kept_iff wellFormed_twinTree inUse_twinSettings
    discover_twinTree hrun
  have hslash := slash_notMem_names henums hobjects (by decide)
  have hnot : ¬DistinctPlaces twinSettings twinOutput run tree' := by
    intro hdistinct
    have hsame := (hplaces hslash).mp hdistinct .object "Foo"
    change "Foo" ∈ run.objectNames → ∀ other ∈ run.objectNames, _ at hsame
    rw [hobjects] at hsame
    exact absurd (hsame (by decide) "foo" (by decide) (by decide)) (by decide)
  refine ⟨run, tree', wellFormed_twinTree, inUse_twinSettings, discover_twinTree, hrun, hnot, ?_⟩
  intro hkept'
  exact hnot (hkept.mp ⟨hkept', fun hscaffold => absurd hscaffold (by decide)⟩).1

/-- The name of the first of the two types is registered, but no file at its path holds a schema of
that name. -/
theorem first_twin_is_lost : ∃ run tree',
    convertDirectory twinSettings "0" twinInput twinOutput twinTree = .ok run tree' ∧
      "Foo" ∈ run.objectNames ∧
      ∀ type : Declaration, type.name = "Foo" →
        ¬Holds tree' (outputPath .pascal twinOutput .object "Foo")
          (document twinSettings.dialect type) := by
  obtain ⟨run, tree', hrun, -, hobjects, hholds⟩ := twin_run
  refine ⟨run, tree', hrun, by rw [hobjects]; decide, fun type hname hother => ?_⟩
  refine document_ne_of_name_ne twinSettings.dialect ?_ (hother.unique hholds)
  rw [hname]
  decide

end RamlSchema.Conversion
