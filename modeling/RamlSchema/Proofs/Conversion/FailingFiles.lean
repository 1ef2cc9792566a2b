import RamlSchema.Proofs.Conversion.Confinement
import RamlSchema.Proofs.Conversion.Discovery
import RamlSchema.Proofs.Raml.LiftedEnums
import RamlSchema.Proofs.Text.Utf8

/-!
# Source files that fail

A source file fails by its bytes alone: they are no text, or a line of it has a tab in its
indentation. All that such a file adds to a run is its failure. So a run is the one without these
files, with the failures added to it, and both write the same; unless the path of a type leads to
the place of such a file.
-/

namespace RamlSchema

open Files (Agree Clear FileTree Ignores Location OnWay Path Touches Untouched)
open Raml (Declaration)
open Report (Failure Kind Run)

def Report.Run.addFailures (run : Run) (failures : List Failure) : Run :=
  { run with
    failures := run.failures ++ failures
    summary :=
      { run.summary with
        files := run.summary.files + failures.length
        errors := run.summary.errors + failures.length } }

namespace Conversion

variable {settings used : Settings} {convention : Convention} {tree : FileTree}
  {gone : List Location} {input output source : Path} {sources : List Path}

/-! ### Why a file fails -/

/-- Bytes that are no text, or those of a text with a tab in the indentation of some line. -/
def Faulty (bytes : List UInt8) : Prop :=
  (¬∃ text, bytes = Text.Utf8.encode text) ∨
    ∃ text, bytes = Text.Utf8.encode text ∧
      ∃ line ∈ Text.lines text, Raml.Source.hasTab line = true

theorem not_faulty_iff {bytes : List UInt8} :
    ¬Faulty bytes ↔ ∃ text, bytes = Text.Utf8.encode text ∧
      ∀ line ∈ Text.lines text, Raml.Source.hasTab line = false := by
  constructor
  · intro hnot
    obtain ⟨htext, hlines⟩ := not_or.mp hnot
    obtain ⟨text, rfl⟩ := not_not.mp htext
    refine ⟨text, rfl, fun line hline => ?_⟩
    exact Bool.eq_false_iff.mpr fun htab => hlines ⟨text, rfl, line, hline, htab⟩
  · rintro ⟨text, rfl, hlines⟩ (htext | ⟨other, hother, line, hline, htab⟩)
    · exact htext ⟨text, rfl⟩
    · obtain rfl := Text.Utf8.encode_injective hother
      exact Bool.false_ne_true ((hlines line hline).symm.trans htab)

theorem readSource_eq {bytes : List UInt8} (hread : tree.readBytes source = .ok bytes) :
    readSource convention tree source = (do
      let content ← (Text.Utf8.decode bytes).mapError fun fault =>
        .source (.unreadable source.text fault.message)
      let parsed ← (Raml.Source.parse convention content source.stem (some source.text)).mapError
        .source
      .ok { size := bytes.length, content, parsed }) := by
  rw [readSource, hread]
  rfl

theorem exists_readSource_iff {bytes : List UInt8} (hread : tree.readBytes source = .ok bytes) :
    (∃ file, readSource convention tree source = .ok file) ↔ ¬Faulty bytes := by
  rw [readSource_eq hread, not_faulty_iff]
  simp only [bind_eq_ok_iff, mapError_eq_ok_iff, Text.Utf8.decode_eq_ok_iff]
  constructor
  · rintro ⟨file, text, htext, parsed, hparse, -⟩
    exact ⟨text, htext, (Raml.Source.exists_parse_iff ..).mp ⟨parsed, hparse⟩⟩
  · rintro ⟨text, htext, hlines⟩
    obtain ⟨parsed, hparse⟩ := (Raml.Source.exists_parse_iff convention text source.stem
      (some source.text)).mpr hlines
    exact ⟨_, text, htext, parsed, hparse, rfl⟩

theorem firstTab?_append {before after : List String} {line : String}
    (hbefore : ∀ earlier ∈ before, Raml.Source.hasTab earlier = false)
    (hline : Raml.Source.hasTab line = true) :
    Raml.Source.firstTab? (before ++ line :: after) = some (before.length + 1) := by
  rw [Raml.Source.firstTab?, List.findIdx?_append, List.findIdx?_eq_none_iff.mpr hbefore,
    List.findIdx?_cons, if_pos hline]
  simp

theorem readSource_eq_error {text line : String} {before after : List String}
    (hread : tree.readBytes source = .ok (Text.Utf8.encode text))
    (hlines : Text.lines text = before ++ line :: after)
    (hbefore : ∀ earlier ∈ before, Raml.Source.hasTab earlier = false)
    (hline : Raml.Source.hasTab line = true) :
    readSource convention tree source =
      .error (.source (.tabIndentation (some source.text) (before.length + 1))) := by
  have hdecode := Text.Utf8.decode_eq_ok_iff.mpr (rfl : Text.Utf8.encode text = _)
  have hparse : Raml.Source.parse convention text source.stem (some source.text) =
      .error (.tabIndentation (some source.text) (before.length + 1)) := by
    rw [Raml.Source.parse, hlines]
    simp only [firstTab?_append hbefore hline]
  rw [readSource_eq hread, hdecode]
  simp only [Except.mapError, bind, Except.bind, hparse]

/-! ### Files that fail -/

/-- The failure of a source file that is left out. -/
def failure? (convention : Convention) (tree : FileTree) (source : Path) : Option Failure :=
  match readSource convention tree source with
  | .error fault => some ⟨source.text, fault.message⟩
  | .ok _ => none

theorem failure?_eq_none_iff :
    failure? convention tree source = none ↔
      ∃ file, readSource convention tree source = .ok file := by
  unfold failure?
  cases readSource convention tree source <;> simp

/-- The discovered source files that fail, in the order of discovery. -/
def failed (settings : Settings) (tree : FileTree) (input : Path) : List (Path × Failure) :=
  match settings.inUse with
  | .error _ => []
  | .ok used =>
    ((discover used tree input).toOption.getD []).filterMap fun source =>
      (failure? used.convention tree source).map (source, ·)

def failedPlaces (settings : Settings) (tree : FileTree) (input : Path) : List Location :=
  (failed settings tree input).map fun (source, _) => source.place tree.here

theorem failed_eq (hused : settings.inUse = .ok used)
    (hsources : discover used tree input = .ok sources) :
    failed settings tree input = sources.filterMap fun source =>
      (failure? used.convention tree source).map (source, ·) := by
  rw [failed, hused]
  simp only [hsources]
  rfl

theorem map_snd_failed (hused : settings.inUse = .ok used)
    (hsources : discover used tree input = .ok sources) :
    (failed settings tree input).map Prod.snd =
      sources.filterMap (failure? used.convention tree) := by
  rw [failed_eq hused hsources, List.map_filterMap]
  refine List.filterMap_congr fun source _ => ?_
  rw [Option.map_map]
  exact Option.map_id'

theorem mem_failed_iff (hused : settings.inUse = .ok used)
    (hsources : discover used tree input = .ok sources) {failure : Failure} :
    (source, failure) ∈ failed settings tree input ↔
      source ∈ sources ∧ failure? used.convention tree source = some failure := by
  rw [failed_eq hused hsources, List.mem_filterMap]
  simp only [Option.map_eq_some_iff, Prod.mk.injEq]
  constructor
  · rintro ⟨_, hsource, _, hfailure, rfl, rfl⟩
    exact ⟨hsource, hfailure⟩
  · rintro ⟨hsource, hfailure⟩
    exact ⟨source, hsource, failure, hfailure, rfl, rfl⟩

/-! ### Runs without these files -/

theorem failure?_ne_none_iff {bytes : List UInt8} (hread : tree.readBytes source = .ok bytes) :
    failure? convention tree source ≠ none ↔ Faulty bytes := by
  rw [Ne, failure?_eq_none_iff, exists_readSource_iff hread, not_not]

/-- A file fails wherever it is found, since it does so by its bytes. -/
theorem mem_failedPlaces_iff (hused : settings.inUse = .ok used)
    (hsources : discover used tree input = .ok sources) (hsource : source ∈ sources) :
    source.place tree.here ∈ failedPlaces settings tree input ↔
      failure? used.convention tree source ≠ none := by
  rw [failedPlaces, List.mem_map]
  constructor
  · rintro ⟨⟨other, failure⟩, hfailed, hplace⟩
    obtain ⟨hother, hfailure⟩ := (mem_failed_iff hused hsources).mp hfailed
    obtain ⟨bytes, hread⟩ := (found_of_mem_discover hsources hsource).readable
    obtain ⟨bytes', hread'⟩ := (found_of_mem_discover hsources hother).readable
    obtain rfl := Files.eq_of_readBytes_eq_ok hread' hread hplace
    rw [failure?_ne_none_iff hread, ← failure?_ne_none_iff hread', hfailure]
    nofun
  · intro hfails
    obtain ⟨failure, hfailure⟩ := Option.ne_none_iff_exists'.mp hfails
    exact ⟨(source, failure), (mem_failed_iff hused hsources).mpr ⟨hsource, hfailure⟩, rfl⟩

theorem namedFiles_failedPlaces (htree : tree.WellFormed) (hused : settings.inUse = .ok used)
    (hsources : discover used tree input = .ok sources) :
    Files.NamedFiles tree (failedPlaces settings tree input) := by
  refine namedFiles_of_found htree fun location hlocation => ?_
  obtain ⟨⟨source, failure⟩, hfailed, rfl⟩ := List.mem_map.mp hlocation
  have hsource := ((mem_failed_iff hused hsources).mp hfailed).1
  exact ⟨source, found_of_mem_discover hsources hsource, rfl⟩

theorem readSource_without (hgone : Files.NamedFiles tree gone) (hfound : Found tree source)
    (hsource : source.place tree.here ∉ gone) :
    readSource convention (tree.without gone) source = readSource convention tree source := by
  obtain ⟨bytes, hread⟩ := hfound.readable
  rw [readSource_eq hread, readSource_eq (hgone.readBytes hread hsource)]

/-- The source files of a run that do not fail. -/
def converted (convention : Convention) (tree : FileTree) (sources : List Path) : List Path :=
  sources.filter fun source => (failure? convention tree source).isNone

theorem converted_cons_of_eq_none (hfailure : failure? convention tree source = none)
    (sources : List Path) :
    converted convention tree (source :: sources) =
      source :: converted convention tree sources := by
  simp [converted, hfailure]

theorem converted_cons_of_eq_some {failure : Failure}
    (hfailure : failure? convention tree source = some failure) (sources : List Path) :
    converted convention tree (source :: sources) = converted convention tree sources := by
  simp [converted, hfailure]

theorem discover_without_failed (htree : tree.WellFormed) (hused : settings.inUse = .ok used)
    (hsources : discover used tree input = .ok sources) :
    discover used (tree.without (failedPlaces settings tree input)) input =
      .ok (converted used.convention tree sources) := by
  have hgone := namedFiles_failedPlaces htree hused hsources
  rw [discover_without hgone hsources, converted]
  refine congrArg Except.ok (List.filter_congr fun source hsource => ?_)
  simp only [mem_failedPlaces_iff hused hsources hsource]
  cases failure? used.convention tree source <;> rfl

/-! ### What is gathered -/

theorem convertSource_of_failure? {failure : Failure}
    (hfailure : failure? settings.convention tree source = some failure) (output : Path) :
    convertSource settings tree output source = .failed failure := by
  unfold failure? at hfailure
  unfold convertSource
  cases hread : readSource settings.convention tree source with
  | ok file =>
    rw [hread] at hfailure
    cases hfailure
  | error fault =>
    rw [hread] at hfailure
    obtain rfl := Option.some_inj.mp hfailure
    rfl

theorem exists_convertSource_eq
    (hfailure : failure? settings.convention tree source = none) (output : Path) :
    ∃ report records, convertSource settings tree output source = .converted report records := by
  obtain ⟨file, hread⟩ := failure?_eq_none_iff.mp hfailure
  rw [convertSource, hread]
  exact ⟨_, _, rfl⟩

theorem convertSource_without (hgone : Files.NamedFiles tree gone) (hfound : Found tree source)
    (hsource : source.place tree.here ∉ gone) :
    convertSource settings (tree.without gone) output source =
      convertSource settings tree output source := by
  rw [convertSource, convertSource, readSource_without hgone hfound hsource]

def Gathered.withFailures (gathered : Gathered) (failures : List Failure) : Gathered :=
  { gathered with failures }

/-- A file that fails adds its failure and changes nothing else, so it may come at any time. -/
theorem foldl_add_convertSource (settings : Settings) (tree : FileTree) (output : Path)
    (sources : List Path) (gathered : Gathered) (failures : List Failure) :
    (sources.map (convertSource settings tree output)).foldl Gathered.add
        (gathered.withFailures failures) =
      (((converted settings.convention tree sources).map
          (convertSource settings tree output)).foldl Gathered.add gathered).withFailures
        (failures ++ sources.filterMap (failure? settings.convention tree)) := by
  induction sources generalizing gathered failures with
  | nil => rw [List.filterMap_nil, List.append_nil]; rfl
  | cons source sources ih =>
    rw [List.map_cons, List.foldl_cons, List.filterMap_cons]
    cases hfailure : failure? settings.convention tree source with
    | some failure =>
      have hadd : (gathered.withFailures failures).add (.failed failure) =
          gathered.withFailures (failures ++ [failure]) := rfl
      rw [converted_cons_of_eq_some hfailure, convertSource_of_failure? hfailure, hadd, ih,
        List.append_assoc, List.singleton_append]
    | none =>
      obtain ⟨report, records, hconverted⟩ := exists_convertSource_eq hfailure output
      have hadd : (gathered.withFailures failures).add (.converted report records) =
          (gathered.add (.converted report records)).withFailures failures := rfl
      rw [converted_cons_of_eq_none hfailure, hconverted, hadd, ih, List.map_cons, List.foldl_cons,
        hconverted]

theorem gather_map_convertSource (settings : Settings) (tree : FileTree) (output : Path)
    (sources : List Path) :
    gather (sources.map (convertSource settings tree output)) =
      (gather ((converted settings.convention tree sources).map
        (convertSource settings tree output))).withFailures
          (sources.filterMap (failure? settings.convention tree)) :=
  foldl_add_convertSource settings tree output sources {} []

theorem filterMap_converted (convention : Convention) (tree : FileTree) (sources : List Path) :
    (converted convention tree sources).filterMap (failure? convention tree) = [] := by
  rw [List.filterMap_eq_nil_iff]
  intro source hsource
  exact Option.isNone_iff_eq_none.mp (List.mem_filter.mp hsource).2

theorem failures_gather_converted (settings : Settings) (tree : FileTree) (output : Path)
    (sources : List Path) :
    (gather ((converted settings.convention tree sources).map
      (convertSource settings tree output))).failures = [] := by
  rw [gather_map_convertSource, filterMap_converted]
  rfl

theorem length_eq_converted_add (convention : Convention) (tree : FileTree)
    (sources : List Path) :
    sources.length = (converted convention tree sources).length +
      (sources.filterMap (failure? convention tree)).length := by
  induction sources with
  | nil => rfl
  | cons source sources ih =>
    rw [List.length_cons, List.filterMap_cons, ih]
    cases hfailure : failure? convention tree source with
    | none => rw [converted_cons_of_eq_none hfailure, List.length_cons, Nat.add_right_comm]
    | some failure => rw [converted_cons_of_eq_some hfailure, List.length_cons, Nat.add_assoc]

theorem Gathered.run_withFailures {gathered : Gathered} (hnone : gathered.failures = [])
    (failures : List Failure) (output : Path) (files : Nat) :
    (gathered.withFailures failures).run output (files + failures.length) =
      (gathered.run output files).addFailures failures := by
  rw [Gathered.run, Gathered.run, Run.addFailures]
  simp [Gathered.withFailures, hnone, Report.Summary.ofReports]

theorem run_gather_eq (settings : Settings) (tree : FileTree) (output : Path)
    (sources : List Path) :
    (gather (sources.map (convertSource settings tree output))).run output sources.length =
      ((gather ((converted settings.convention tree sources).map
        (convertSource settings tree output))).run output
          (converted settings.convention tree sources).length).addFailures
            (sources.filterMap (failure? settings.convention tree)) := by
  rw [gather_map_convertSource, length_eq_converted_add settings.convention tree sources,
    Gathered.run_withFailures (failures_gather_converted settings tree output sources)]

/-! ### What is written -/

section Ignores

variable {stamp : String} {path : Path}

theorem ignores_onFiles {α : Type} {action : Files.Action Files.Fault α}
    (haction : Ignores gone tree action) : Ignores gone tree (onFiles action) := by
  change Agree gone tree.here (EStateM.adaptExcept _ action tree)
    (EStateM.adaptExcept _ action (tree.without gone))
  unfold EStateM.adaptExcept
  rcases haction.ok_or_error with ⟨a, after, hrun, hrun', hhere⟩ | ⟨e, after, hrun, hrun', hhere⟩
  · rw [hrun, hrun']
    exact .ok hhere
  · rw [hrun, hrun']
    exact .error hhere

theorem ignores_checkVacant (hclear : Clear gone tree.here path) (mode : ModeSetting) :
    Ignores gone tree (checkVacant mode path) := by
  unfold checkVacant
  split
  case isFalse => exact Files.ignores_pure gone tree _
  case isTrue =>
    refine Files.ignores_get_bind (by rw [Files.look_without hclear]) ?_
    split
    · exact Files.ignores_throw gone tree _
    · exact Files.ignores_pure gone tree _
    · exact Files.ignores_throw gone tree _

theorem ignores_writeBytes (huntouched : Untouched gone tree.here stamp path) (atomic : Bool)
    (bytes : List UInt8) : Ignores gone tree (writeBytes stamp atomic path bytes) := by
  unfold writeBytes
  refine (Files.ignores_ensureDirectories huntouched.clear.parent).bind fun _ between _ hhere => ?_
  rw [← hhere] at huntouched
  split
  · exact Files.ignores_writeAtomically huntouched bytes
  · exact Files.ignores_writeDirectly huntouched.clear bytes

theorem ignores_write (huntouched : Untouched gone tree.here stamp path) (setting : OutputSetting)
    (document : Json) (validate : Bool) :
    Ignores gone tree (Writer.write ⟨setting, stamp⟩ path document validate) := by
  unfold Writer.write
  split
  case h_1 => exact Files.ignores_throw gone tree _
  case h_2 mode atomic _ =>
    refine (ignores_checkVacant huntouched.clear mode).bind fun _ between _ hhere => ?_
    rw [← hhere] at huntouched
    have hwrite : Ignores gone between (do
        onFiles (writeBytes stamp atomic path (Text.Utf8.encode document.print))
        pure (Text.Utf8.encode document.print).length : Action Nat) :=
      (ignores_onFiles (ignores_writeBytes huntouched atomic _)).bind
        fun _ after _ _ => Files.ignores_pure gone after _
    cases validate with
    | false => exact hwrite
    | true =>
      cases documentFault? document with
      | some fault => exact Files.ignores_throw gone between fault
      | none => exact hwrite

/-- None of the places lies where a run looks or writes: on the way to a directory that it creates,
or on the way of a file that it writes or in the place of the temporary one. -/
structure LeftAlone (gone : List Location) (here : Location) (stamp : String) (output : Path)
    (documents : List (Path × Json)) : Prop where
  root : Clear gone here output
  directory : ∀ kind, Clear gone here (output.child (directoryOf kind))
  file : ∀ file ∈ documents, Untouched gone here stamp file.1

theorem ignores_writeAll {documents : List (Path × Json)}
    (huntouched : ∀ file ∈ documents, Untouched gone tree.here stamp file.1)
    (setting : OutputSetting) : Ignores gone tree (writeAll ⟨setting, stamp⟩ documents) := by
  induction documents generalizing tree with
  | nil => exact Files.ignores_pure gone tree _
  | cons file documents ih =>
    have hfirst := ignores_write (huntouched file List.mem_cons_self) setting file.2 true
    rw [writeAll_cons]
    refine hfirst.bind fun _ between _ hhere => ih fun later hlater => ?_
    rw [hhere]
    exact huntouched later (List.mem_cons_of_mem file hlater)

theorem ignores_createDirectories (houtput : Clear gone tree.here output)
    (hdirectory : ∀ kind, Clear gone tree.here (output.child (directoryOf kind))) :
    Ignores gone tree (createDirectories output) := by
  refine (ignores_onFiles (Files.ignores_ensureDirectories houtput)).bind
    fun _ between _ hhere => ?_
  refine (ignores_onFiles (Files.ignores_ensureDirectories (hhere ▸ hdirectory .enum))).bind
    fun _ between' _ hhere' => ?_
  have hobject := hdirectory .object
  rw [← hhere, ← hhere'] at hobject
  exact ignores_onFiles (Files.ignores_ensureDirectories hobject)

theorem ignores_steps {documents : List (Path × Json)}
    (hleft : LeftAlone gone tree.here stamp output documents) (setting : OutputSetting) :
    Ignores gone tree
      (createDirectories output >>= fun _ => writeAll ⟨setting, stamp⟩ documents) := by
  refine (ignores_createDirectories hleft.root hleft.directory).bind fun _ between _ hhere => ?_
  refine ignores_writeAll (fun file hfile => ?_) setting
  rw [hhere]
  exact hleft.file file hfile

end Ignores

/-! ### Two runs -/

/-- Two results of a run, the first with some more failures, that differ in the missing files
alone. -/
inductive EndsAlike (gone : List Location) (failures : List Failure) :
    EStateM.Result Fault FileTree Run → EStateM.Result Fault FileTree Run → Prop where
  | completed {run : Run} {tree : FileTree} (hnone : run.failures = []) :
      EndsAlike gone failures (.ok (run.addFailures failures) tree) (.ok run (tree.without gone))
  | stopped {fault : Fault} {tree : FileTree} :
      EndsAlike gone failures (.error fault tree) (.error fault (tree.without gone))

theorem EndsAlike.of_completed {failures : List Failure} {run : Run}
    {result : EStateM.Result Fault FileTree Run}
    (h : EndsAlike gone failures (.ok run tree) result) :
    ∃ run', run = run'.addFailures failures ∧ run'.failures = [] ∧
      result = .ok run' (tree.without gone) := by
  cases h with
  | completed hnone => exact ⟨_, rfl, hnone, rfl⟩

theorem endsAlike_bind_pure {action : Action Unit} (haction : Ignores gone tree action) {run : Run}
    (hnone : run.failures = []) (failures : List Failure) :
    EndsAlike gone failures ((action >>= fun _ => pure (run.addFailures failures)) tree)
      ((action >>= fun _ => pure run) (tree.without gone)) := by
  rcases haction.ok_or_error with ⟨_, after, hrun, hrun', -⟩ | ⟨fault, after, hrun, hrun', -⟩
  · rw [Files.Action.bind_of_eq_ok hrun, Files.Action.bind_of_eq_ok hrun']
    exact .completed hnone
  · rw [Files.Action.bind_of_eq_error hrun, Files.Action.bind_of_eq_error hrun']
    exact .stopped

theorem endsAlike_writeRun {stamp : String} {documents : List (Path × Json)}
    (hleft : LeftAlone gone tree.here stamp output documents) (setting : OutputSetting) {run : Run}
    (hnone : run.failures = []) (failures : List Failure) :
    EndsAlike gone failures
      (writeRun output ⟨setting, stamp⟩ documents (run.addFailures failures) tree)
      (writeRun output ⟨setting, stamp⟩ documents run (tree.without gone)) := by
  rw [writeRun_eq_bind, writeRun_eq_bind]
  exact endsAlike_bind_pure (ignores_steps hleft setting) hnone failures

theorem typesIn_of_failure? (hfailure : failure? convention tree source ≠ none) :
    typesIn convention tree source = [] := by
  unfold failure? at hfailure
  unfold typesIn
  cases hread : readSource convention tree source with
  | error fault => rfl
  | ok file =>
    rw [hread] at hfailure
    exact absurd rfl hfailure

/-- A source file that does not fail is found in its place and read as before. -/
theorem of_mem_converted (hused : settings.inUse = .ok used)
    (hsources : discover used tree input = .ok sources)
    (hsource : source ∈ converted used.convention tree sources) :
    Found tree source ∧ source.place tree.here ∉ failedPlaces settings tree input := by
  obtain ⟨hmem, hnone⟩ := List.mem_filter.mp hsource
  refine ⟨found_of_mem_discover hsources hmem, fun hplace => ?_⟩
  exact (mem_failedPlaces_iff hused hsources hmem).mp hplace (Option.isNone_iff_eq_none.mp hnone)

theorem typesRead_converted (convention : Convention) (tree : FileTree) (sources : List Path) :
    typesRead convention tree (converted convention tree sources) =
      typesRead convention tree sources := by
  induction sources with
  | nil => rfl
  | cons source sources ih =>
    have hcons (others : List Path) : typesRead convention tree (source :: others) =
        typesIn convention tree source ++ typesRead convention tree others := List.flatMap_cons
    rw [hcons, ← ih]
    cases hfailure : failure? convention tree source with
    | none => rw [converted_cons_of_eq_none hfailure, hcons]
    | some failure =>
      rw [converted_cons_of_eq_some hfailure, typesIn_of_failure? (by rw [hfailure]; nofun),
        List.nil_append]

theorem convertDirectory_without (htree : tree.WellFormed) (hused : settings.inUse = .ok used)
    (hsources : discover used tree input = .ok sources) (hworkers : used.checkWorkers = .ok ())
    (stamp : String) (output : Path) :
    convertDirectory settings stamp input output
        (tree.without (failedPlaces settings tree input)) =
      writeRun output ⟨used.output, stamp⟩
        (filesOf used output (typesRead used.convention tree sources))
        ((gather ((converted used.convention tree sources).map
          (convertSource used tree output))).run output
            (converted used.convention tree sources).length)
        (tree.without (failedPlaces settings tree input)) := by
  have hgone := namedFiles_failedPlaces htree hused hsources
  rw [convertDirectory_eq_writeRun hused (discover_without_failed htree hused hsources) hworkers]
  have htypes : typesRead used.convention (tree.without (failedPlaces settings tree input))
        (converted used.convention tree sources) = typesRead used.convention tree sources := by
    rw [← typesRead_converted used.convention tree sources]
    refine List.flatMap_congr fun source hsource => ?_
    obtain ⟨hfound, hplace⟩ := of_mem_converted hused hsources hsource
    rw [typesIn, typesIn, readSource_without hgone hfound hplace]
  have houtcomes : (converted used.convention tree sources).map
        (convertSource used (tree.without (failedPlaces settings tree input)) output) =
      (converted used.convention tree sources).map (convertSource used tree output) := by
    refine List.map_congr_left fun source hsource => ?_
    obtain ⟨hfound, hplace⟩ := of_mem_converted hused hsources hsource
    exact convertSource_without hgone hfound hplace
  rw [htypes, houtcomes]

/-! ### Files out of the way -/

theorem not_touches_within {here : Location} {stamp : String} {names : List String}
    {location : Location} (hne : names ≠ []) (hup : ".." ∉ names)
    (hfar : ¬NearOutput here output location) :
    ¬Touches here stamp (output.within names) location := by
  rintro (hway | rfl)
  · exact hfar (hway.of_within hup)
  · have hparent : (output.within names).parent = output.within names.dropLast := by
      rw [Path.parent, Path.within, Path.within, List.dropLast_append_of_ne_nil hne]
    have hnames : ".." ∉ names.dropLast := fun hmem => hup (List.dropLast_subset names hmem)
    rw [hparent, Files.place_within here hnames, List.append_assoc] at hfar
    exact hfar (.inr (List.prefix_append _ _))

/-- Where no name has a slash, a run looks and writes near its output directory alone. -/
theorem leftAlone_of_far {here : Location} {types : List Declaration} (stamp : String)
    (hfar : ∀ location ∈ gone, ¬NearOutput here output location)
    (hnames : ∀ type ∈ types, '/' ∉ type.name.toList) :
    LeftAlone gone here stamp output (filesOf used output types) where
  root := fun location hlocation hway => hfar location hlocation (.inl hway)
  directory := fun kind location hlocation hway =>
    hfar location hlocation (onWay_directoryOf hway)
  file := by
    intro file hfile location hlocation
    rcases of_mem_filesOf hfile with ⟨kind, name, type, hlast, rfl⟩ | ⟨name, hname, hpath⟩
    · obtain ⟨htype, -, rfl⟩ := of_lastType?_eq_some hlast
      rw [outputPath_eq_within (hnames type htype)]
      exact not_touches_within (by simp) (up_notMem_outputParts (hnames type htype) kind)
        (hfar location hlocation)
    · obtain ⟨hchild, hup⟩ := child_scaffold output hname
      rw [hpath, hchild]
      exact not_touches_within (List.cons_ne_nil _ _) hup (hfar location hlocation)

/-! ### Isolation -/

theorem endsAlike_convertDirectory (htree : tree.WellFormed) (settings : Settings) (stamp : String)
    (input output : Path)
    (hleft : ∀ used sources, settings.inUse = .ok used → discover used tree input = .ok sources →
      LeftAlone (failedPlaces settings tree input) tree.here stamp output
        (filesOf used output (typesRead used.convention tree sources))) :
    EndsAlike (failedPlaces settings tree input) ((failed settings tree input).map Prod.snd)
      (convertDirectory settings stamp input output tree)
      (convertDirectory settings stamp input output
        (tree.without (failedPlaces settings tree input))) := by
  cases hused : settings.inUse with
  | error fault =>
    rw [convertDirectory_of_inUse_eq_error hused, convertDirectory_of_inUse_eq_error hused]
    exact .stopped
  | ok used =>
    cases hsources : discover used tree input with
    | error fault =>
      have hnone : failed settings tree input = [] := by
        rw [failed, hused]
        simp only [hsources]
        rfl
      have hstopped := convertDirectory_of_discover_eq_error hused hsources stamp output
      have hstopped' : convertDirectory settings stamp input output (tree.without []) =
          .error fault (tree.without []) := by rw [Files.without_nil, hstopped]
      rw [failedPlaces, hnone, List.map_nil, List.map_nil, hstopped, hstopped']
      exact .stopped
    | ok sources =>
      cases hworkers : used.checkWorkers with
      | error fault =>
        have hsources' := discover_without_failed htree hused hsources
        rw [convertDirectory_of_checkWorkers_eq_error hused hsources hworkers,
          convertDirectory_of_checkWorkers_eq_error hused hsources' hworkers]
        exact .stopped
      | ok _ =>
        rw [convertDirectory_eq_writeRun hused hsources hworkers,
          convertDirectory_without htree hused hsources hworkers, run_gather_eq,
          map_snd_failed hused hsources]
        refine endsAlike_writeRun (hleft used sources hused hsources) used.output ?_ _
        exact failures_gather_converted used tree output sources

/-- **Source files that fail are isolated.** A discovered file fails exactly if its bytes are
faulty, and then a tab is reported in the first line that has one. The run without these files ends
as the run with them does, but for their failures, whenever neither has to do with their places; and
this is so if they lie far from the output directory and no name of a type leads out of it. -/
theorem failing_sources_are_isolated (htree : tree.WellFormed) (settings : Settings)
    (stamp : String) (input output : Path) :
    (∀ used sources, settings.inUse = .ok used → discover used tree input = .ok sources →
      ∀ source ∈ sources, ∃ bytes, tree.readBytes source = .ok bytes ∧
        ((∃ failure, (source, failure) ∈ failed settings tree input) ↔ Faulty bytes) ∧
        ∀ text before line after, bytes = Text.Utf8.encode text →
          Text.lines text = before ++ line :: after →
          (∀ earlier ∈ before, Raml.Source.hasTab earlier = false) →
          Raml.Source.hasTab line = true →
          ∀ failure, (source, failure) ∈ failed settings tree input →
            failure = ⟨source.text, (Raml.ParseError.tabIndentation (some source.text)
              (before.length + 1)).message⟩) ∧
    ((∀ used sources, settings.inUse = .ok used → discover used tree input = .ok sources →
        LeftAlone (failedPlaces settings tree input) tree.here stamp output
          (filesOf used output (typesRead used.convention tree sources))) →
      EndsAlike (failedPlaces settings tree input) ((failed settings tree input).map Prod.snd)
        (convertDirectory settings stamp input output tree)
        (convertDirectory settings stamp input output
          (tree.without (failedPlaces settings tree input)))) ∧
    ∀ used sources, settings.inUse = .ok used → discover used tree input = .ok sources →
      (∀ location ∈ failedPlaces settings tree input,
        ¬NearOutput tree.here output location) →
      (∀ type ∈ typesRead used.convention tree sources, '/' ∉ type.name.toList) →
      LeftAlone (failedPlaces settings tree input) tree.here stamp output
        (filesOf used output (typesRead used.convention tree sources)) := by
  refine ⟨?_, endsAlike_convertDirectory htree settings stamp input output,
    fun used sources _ _ => leftAlone_of_far stamp⟩
  intro used sources hused hsources source hsource
  obtain ⟨bytes, hread⟩ := (found_of_mem_discover hsources hsource).readable
  refine ⟨bytes, hread, ?_, ?_⟩
  · have hfails : failure? used.convention tree source ≠ none ↔ Faulty bytes :=
      failure?_ne_none_iff hread
    rw [← hfails, Option.ne_none_iff_exists']
    simp only [mem_failed_iff hused hsources, hsource, true_and]
  · rintro text before line after rfl hlines hbefore hline failure hfailed
    have hfailure := ((mem_failed_iff hused hsources).mp hfailed).2
    rw [failure?, readSource_eq_error hread hlines hbefore hline] at hfailure
    exact (Option.some_inj.mp hfailure).symm

/-- A file with a tab in its second line, and a library among the enums. -/
def tabbedTree : FileTree where
  nodes := [(["in"], .directory), (["in", "a.raml"], .file (Text.Utf8.encode "types:\n\tBar:\n")),
    (["in", "enums"], .directory),
    (["in", "enums", "b.raml"], .file (Text.Utf8.encode "#%RAML 1.0 Library\ntypes:\n  Foo:\n"))]

def tabbedSources : List Path := [⟨"", ["in", "a.raml"]⟩, ⟨"", ["in", "enums", "b.raml"]⟩]

def tabFailure : Failure := ⟨"in/a.raml", "in/a.raml:2: Tab character in indentation"⟩

theorem wellFormed_tabbedTree : tabbedTree.WellFormed :=
  FileTree.wellFormed_of_forall rfl (by decide)

set_option maxRecDepth 100000 in
theorem tabbed_evaluated :
    failed twinSettings tabbedTree twinInput = [(⟨"", ["in", "a.raml"]⟩, tabFailure)] ∧
      (discover twinSettings tabbedTree twinInput).toOption = some tabbedSources ∧
      typesRead twinSettings.convention tabbedTree tabbedSources = [{ name := "Foo" }] ∧
      ((createDirectories twinOutput >>= fun _ => writeUnchecked ⟨twinSettings.output, "0"⟩
        (filesOf twinSettings twinOutput [{ name := "Foo" }])).answer? tabbedTree).isSome := by
  decide +kernel

theorem far_from_twinOutput : ¬NearOutput [] twinOutput ["in", "a.raml"] := by
  rintro (⟨count, hplace⟩ | hbelow)
  · cases count with
    | zero => exact absurd hplace (by decide)
    | succ count =>
      have hlead : twinOutput.lead (count + 1) = twinOutput := by simp [Path.lead, twinOutput]
      rw [hlead] at hplace
      exact absurd hplace (by decide)
  · exact absurd hbelow (by decide)

/-- With the faulty file and without it, the run reads and writes the type of the library. -/
theorem failing_sources_are_isolated_tabbed : ∃ run tree',
    convertDirectory twinSettings "0" twinInput twinOutput tabbedTree =
        .ok (run.addFailures [tabFailure]) tree' ∧
      convertDirectory twinSettings "0" twinInput twinOutput
          (tabbedTree.without [["in", "a.raml"]]) =
        .ok run (tree'.without [["in", "a.raml"]]) ∧
      run.objectNames = ["Foo"] ∧ run.failures = [] := by
  obtain ⟨hfailed, hdiscover, htypes, hwrites⟩ := tabbed_evaluated
  have hsources := eq_ok_of_toOption_eq_some hdiscover
  have hplaces : failedPlaces twinSettings tabbedTree twinInput = [["in", "a.raml"]] := by
    rw [failedPlaces, hfailed]
    rfl
  obtain ⟨run, tree', hrun⟩ := exists_run_of_writeUnchecked inUse_twinSettings hsources rfl rfl
    htypes hwrites
  have hnames := (completed_of_run wellFormed_tabbedTree inUse_twinSettings hsources
    hrun).names_eq .object
  rw [htypes] at hnames
  obtain ⟨-, halike, hleft⟩ :=
    failing_sources_are_isolated wellFormed_tabbedTree twinSettings "0" twinInput twinOutput
  have hends := halike fun used sources hused hfound => hleft used sources hused hfound ?_ ?_
  · rw [hplaces, hfailed, hrun] at hends
    obtain ⟨run', rfl, hnone, hrun'⟩ := hends.of_completed
    exact ⟨run', tree', hrun, hrun', hnames, hnone⟩
  · rw [hplaces]
    exact List.forall_mem_singleton.mpr far_from_twinOutput
  · obtain rfl := Except.ok.inj (inUse_twinSettings.symm.trans hused)
    obtain rfl := Except.ok.inj (hsources.symm.trans hfound)
    rw [htypes]
    decide

/-! ### A file in the way -/

/-- A library with a type below the place of a file that is no text. -/
def blockedTree : FileTree where
  nodes := [(["in"], .directory), (["in", "a.raml"], .file [0xFF]), (["in", "enums"], .directory),
    (["in", "enums", "b.raml"],
      .file (Text.Utf8.encode "#%RAML 1.0 Library\ntypes:\n  ../../in/a.raml/x:\n"))]

theorem wellFormed_blockedTree : blockedTree.WellFormed :=
  FileTree.wellFormed_of_forall rfl (by decide)

def blockedFiles : List (Path × Json) :=
  filesOf twinSettings twinOutput [{ name := "../../in/a.raml/x" }]

set_option maxRecDepth 100000 in
theorem blocked_evaluated :
    failedPlaces twinSettings blockedTree twinInput = [["in", "a.raml"]] ∧
      (discover twinSettings blockedTree twinInput).toOption = some tabbedSources ∧
      typesRead twinSettings.convention blockedTree tabbedSources =
        [{ name := "../../in/a.raml/x" }] ∧
      ((createDirectories twinOutput >>= fun _ =>
        writeUnchecked ⟨twinSettings.output, "0"⟩ blockedFiles).answer?
          blockedTree).isSome = false ∧
      ((createDirectories twinOutput >>= fun _ =>
        writeUnchecked ⟨twinSettings.output, "0"⟩ blockedFiles).answer?
          (blockedTree.without [["in", "a.raml"]])).isSome = true := by
  decide +kernel

/-- The file lies far from the output directory, and yet it stops the run: without it, the run
completes. -/
theorem failing_source_stops_run :
    failedPlaces twinSettings blockedTree twinInput = [["in", "a.raml"]] ∧
      ¬NearOutput blockedTree.here twinOutput ["in", "a.raml"] ∧
      (∃ fault tree', convertDirectory twinSettings "0" twinInput twinOutput blockedTree =
        .error fault tree') ∧
      ∃ run tree', convertDirectory twinSettings "0" twinInput twinOutput
        (blockedTree.without [["in", "a.raml"]]) = .ok run tree' := by
  obtain ⟨hplaces, hdiscover, htypes, hstopped, hcompleted⟩ := blocked_evaluated
  have hsources := eq_ok_of_toOption_eq_some hdiscover
  have hfaults : ∀ file ∈ blockedFiles, documentFault? file.2 = none := by
    rw [blockedFiles, ← htypes]
    exact fun file => documentFault?_of_mem_filesOf rfl
  have hwithout := convertDirectory_without wellFormed_blockedTree inUse_twinSettings hsources rfl
    "0" twinOutput
  rw [hplaces, htypes, ← blockedFiles] at hwithout
  refine ⟨hplaces, far_from_twinOutput, ?_, ?_⟩
  · rw [convertDirectory_eq_writeRun inUse_twinSettings hsources rfl, htypes, ← blockedFiles]
    refine Files.Action.exists_error_of_isNone_answer? ?_
    rw [← Option.not_isSome, isSome_answer?_writeRun hfaults, hstopped, Bool.not_false]
  · rw [hwithout]
    refine Files.Action.exists_of_isSome_answer? ?_
    rw [isSome_answer?_writeRun hfaults, hcompleted]

end Conversion

end RamlSchema
