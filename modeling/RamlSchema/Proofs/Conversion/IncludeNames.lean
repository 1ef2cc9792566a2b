import RamlSchema.Proofs.Conversion.LiftedEnums
import RamlSchema.Proofs.Raml.Includes

/-!
# Names of included files

An include directive is written with the name of the file, and the schema is written under the name
of the type in it. These are one name in a convention exactly if the name of the file keeps its
words in the type name.
-/

namespace RamlSchema.Conversion

open Files (FileTree Path)
open Naming (keepsName typeName)
open Raml (Declaration SourceFormat)
open Raml.TypeToken (includeToken)
open Report (Kind Run)

variable {settings used : Settings} {input output : Path} {tree tree' : FileTree} {run : Run}
  {sources : List Path}

/-- A file of a single type is written under the type name made of its stem. -/
theorem Completed.exists_mem_outputPaths
    (h : Completed settings input output tree tree' run used sources) {path : Path}
    (hpath : path ∈ sources) {file : SourceFile}
    (hread : readSource used.convention tree path = .ok file)
    (hformat : SourceFormat.ofContent file.content = .dataType) :
    ∃ type ∈ file.parsed.types, type.name = typeName path.stem ∧
      outputPath used.convention output (kindOf type) (typeName path.stem) ∈
        outputPaths used output run := by
  obtain ⟨type, lifted, htypes, hname⟩ :=
    Raml.Source.exists_types_eq (parse_of_readSource hread) hformat
  have hmem : type ∈ file.parsed.types := by
    rw [htypes]
    exact List.mem_cons_self
  have hsource : type ∈ typesRead used.convention tree sources :=
    mem_typesRead_iff.mpr ⟨path, hpath, file, hread, hmem⟩
  obtain ⟨hwritten, -⟩ := h.written_of_mem_typesRead hsource
  rw [hname] at hwritten
  exact ⟨type, hmem, hname, hwritten⟩

theorem fileName_typeName_iff (convention : Convention) (kind : Kind) (stem : String) :
    (targetOf kind (typeName stem)).fileName convention = (targetOf kind stem).fileName convention ↔
      keepsName convention stem.toList = true := by
  rw [fileName_eq_iff, Convention.apply, Convention.apply, typeName, String.toList_ofList,
    String.ofList_inj, Naming.applyChars_typeNameChars_iff]

/-- **An included file is found under its own name exactly if that name keeps its words.** The
directive refers to the stem of the file, the run has written the type name made of the stem, and
the condition says for which stems the two are the same in the convention. -/
theorem include_names_agree_iff (convention : Convention) :
    (∀ directory stem : String, stem ≠ "" → '/' ∉ stem.toList →
      Path.stemOf (stem ++ ".raml") = stem ∧
        ∃ kind, Raml.TypeToken.target? (includeToken directory stem) = some (targetOf kind stem) ∧
          (kind = .enum ↔
            Raml.TypeToken.isEnumPath (Text.trim (directory ++ "/" ++ (stem ++ ".raml"))) = true)) ∧
    (∀ (settings used : Settings) (stamp : String) (input output : Path) (tree tree' : FileTree)
      (run : Run) (sources : List Path), tree.WellFormed → settings.inUse = .ok used →
      used.convention = convention → discover used tree input = .ok sources →
      convertDirectory settings stamp input output tree = .ok run tree' →
      ∀ path ∈ sources, ∀ file, readSource convention tree path = .ok file →
        SourceFormat.ofContent file.content = .dataType →
          ∃ type ∈ file.parsed.types, type.name = typeName path.stem ∧
            outputPath convention output (kindOf type) (typeName path.stem) ∈
              outputPaths used output run) ∧
    ∀ kind stem, (targetOf kind (typeName stem)).fileName convention =
      (targetOf kind stem).fileName convention ↔ keepsName convention stem.toList = true := by
  refine ⟨?_, ?_, fileName_typeName_iff convention⟩
  · intro directory stem hstem hslash
    refine ⟨Raml.stemOf_append hstem, ?_⟩
    rw [Raml.TypeToken.target?_includeToken directory hslash]
    cases hpath : Raml.TypeToken.isEnumPath (Text.trim (directory ++ "/" ++ (stem ++ ".raml"))) with
    | true => exact ⟨.enum, rfl, iff_of_true rfl rfl⟩
    | false => exact ⟨.object, rfl, iff_of_false nofun nofun⟩
  · intro settings used stamp input output tree tree' run sources htree hused hconvention hsources
      hrun path hpath file hread hformat
    subst hconvention
    exact (completed_of_run htree hused hsources hrun).exists_mem_outputPaths hpath hread hformat

/-! ### A file with a hyphen in its name -/

/-- A directory with one file of a single type, `a-b.raml`. -/
def hyphenTree : FileTree where
  nodes := [(["in"], .directory),
    (["in", "a-b.raml"], .file (Text.Utf8.encode "#%RAML 1.0 DataType\n"))]

def hyphenSettings : Settings where
  convention := .kebab
  dialect := .str "d"
  scaffold := .bool false

def hyphenSource : Path := ⟨"", ["in", "a-b.raml"]⟩

theorem wellFormed_hyphenTree : hyphenTree.WellFormed :=
  FileTree.wellFormed_of_forall rfl (by decide)

set_option maxRecDepth 100000 in
theorem hyphen_evaluated :
    (discover hyphenSettings hyphenTree ⟨"", ["in"]⟩).toOption = some [hyphenSource] ∧
    ((readSource .kebab hyphenTree hyphenSource).toOption.map fun file =>
      SourceFormat.ofContent file.content) = some .dataType ∧
    typesRead .kebab hyphenTree [hyphenSource] = [{ name := "AB" }] ∧
    ((createDirectories ⟨"", ["out"]⟩ >>= fun _ => writeUnchecked ⟨hyphenSettings.output, "0"⟩
        (filesOf hyphenSettings ⟨"", ["out"]⟩ [{ name := "AB" }])).answer? hyphenTree).isSome := by
  decide +kernel

theorem hyphen_run : ∃ run tree',
    convertDirectory hyphenSettings "0" ⟨"", ["in"]⟩ ⟨"", ["out"]⟩ hyphenTree = .ok run tree' ∧
      run.enumNames = [] ∧ run.objectNames = ["AB"] := by
  obtain ⟨hdiscover, -, htypes, hwrites⟩ := hyphen_evaluated
  have hused : hyphenSettings.inUse = .ok hyphenSettings := rfl
  have hsources := eq_ok_of_toOption_eq_some hdiscover
  obtain ⟨run, tree', hrun⟩ :=
    exists_run_of_writeUnchecked hused hsources rfl rfl htypes hwrites
  have hnames := (completed_of_run wellFormed_hyphenTree hused hsources hrun).names_eq
  rw [show typesRead hyphenSettings.convention _ _ = _ from htypes] at hnames
  exact ⟨run, tree', hrun, hnames .enum, hnames .object⟩

/-- The directive refers to `a-b`, and the run writes the type under its name `AB`. These are two
names with hyphens between words, since no capital follows a small letter in `AB`. -/
theorem include_names_agree_iff_hyphen :
    Raml.TypeToken.target? (includeToken "in" "a-b") = some (.object "a-b") ∧
    (∃ run tree' file, convertDirectory hyphenSettings "0" ⟨"", ["in"]⟩ ⟨"", ["out"]⟩ hyphenTree =
        .ok run tree' ∧
      readSource .kebab hyphenTree hyphenSource = .ok file ∧
      ∃ type ∈ file.parsed.types, type.name = "AB" ∧
        outputPath .kebab ⟨"", ["out"]⟩ (kindOf type) "AB" ∈
          outputPaths hyphenSettings ⟨"", ["out"]⟩ run) ∧
    (targetOf .object "AB").fileName .kebab ≠ (targetOf .object "a-b").fileName .kebab ∧
    (targetOf .object (typeName "ab-c")).fileName .kebab =
      (targetOf .object "ab-c").fileName .kebab := by
  obtain ⟨htargets, hwritten, hnames⟩ := include_names_agree_iff .kebab
  have hname : typeName "a-b" = "AB" := rfl
  refine ⟨?_, ?_, ?_, ?_⟩
  · obtain ⟨-, kind, htarget, hkind⟩ := htargets "in" "a-b" (by decide) (by decide)
    cases kind with
    | enum => exact absurd (hkind.mp rfl) (by decide)
    | object => exact htarget
  · obtain ⟨run, tree', hrun, -, -⟩ := hyphen_run
    obtain ⟨hdiscover, hsource, -⟩ := hyphen_evaluated
    obtain ⟨file, hread, hformat⟩ := Option.map_eq_some_iff.mp hsource
    have hread := eq_ok_of_toOption_eq_some hread
    obtain ⟨type, htype, htypeName, hpath⟩ := hwritten hyphenSettings hyphenSettings "0"
      ⟨"", ["in"]⟩ ⟨"", ["out"]⟩ hyphenTree tree' run [hyphenSource] wellFormed_hyphenTree rfl rfl
      (eq_ok_of_toOption_eq_some hdiscover) hrun hyphenSource (List.mem_singleton_self _) file hread
      hformat
    have hstem : hyphenSource.stem = "a-b" := rfl
    rw [hstem, hname] at htypeName hpath
    exact ⟨run, tree', file, hrun, hread, type, htype, htypeName, hpath⟩
  · intro heq
    rw [← hname] at heq
    exact absurd ((hnames .object "a-b").mp heq) (by decide)
  · exact (hnames .object "ab-c").mpr rfl

/-- The one file of the run lies elsewhere than the directive for its source leads to. -/
theorem hyphenated_file_is_missed : ∃ run tree',
    convertDirectory hyphenSettings "0" ⟨"", ["in"]⟩ ⟨"", ["out"]⟩ hyphenTree = .ok run tree' ∧
      outputPaths hyphenSettings ⟨"", ["out"]⟩ run =
        [⟨"", ["out", "business-objects", "ab.schema.json"]⟩] ∧
      Raml.TypeToken.reference? .kebab (includeToken "in" "a-b") = some "./a-b.schema.json" := by
  obtain ⟨run, tree', hrun, henums, hobjects⟩ := hyphen_run
  refine ⟨run, tree', hrun, ?_, rfl⟩
  rw [outputPaths, henums, hobjects]
  rfl

end RamlSchema.Conversion
