import Mathlib.Data.List.ReduceOption
import RamlSchema.Proofs.Conversion.KeptTypes
import RamlSchema.Proofs.Conversion.Registry

/-!
# The accounts of a run

The figures of a summary come from different steps of a run: the files are counted when they are
found, the written types and the warnings in the reports of their files, and the names and
collisions in the registry. What keeps them in balance is that the types of a file are reported and
registered alike, one call for each, and that a call adds either a name or a collision. The
collisions that a file adds stand together, in its turn, and it is warned of just these.
-/

namespace RamlSchema.Conversion

open Files (FileTree Path)
open Report (Collision FileReport Kind Run total)

variable {settings : Settings} {stamp : String} {input output : Path} {tree tree' : FileTree}
  {run : Run}

/-! ### Totals -/

theorem total_append (reports others : List FileReport) (count : FileReport → Nat) :
    total (reports ++ others) count = total reports count + total others count := by
  induction reports with
  | nil => exact (Nat.zero_add _).symm
  | cons report reports ih =>
    change count report + total (reports ++ others) count = count report + total reports count + _
    rw [ih, Nat.add_assoc]

theorem total_eq_zero {reports : List FileReport} {count : FileReport → Nat}
    (hcount : ∀ report ∈ reports, count report = 0) : total reports count = 0 := by
  induction reports with
  | nil => rfl
  | cons report reports ih =>
    obtain ⟨hreport, hreports⟩ := List.forall_mem_cons.mp hcount
    change count report + total reports count = 0
    rw [hreport, ih hreports]

def writtenCount (report : FileReport) : Nat := report.enums.length + report.objects.length

/-! ### Calls of a file -/

def callsOf (file : String) (records : List Record) : List Registration :=
  records.map fun record => ⟨kindOf record.type, record.type.name, record.schema, file⟩

theorem registerAll_eq_enterAll (registry : Registry) (file : String) (records : List Record) :
    registerAll registry file records = registry.enterAll (callsOf file records) := by
  rw [Registry.enterAll, callsOf, List.foldl_map]
  rfl

theorem file_of_mem_answers {registry : Registry} {file : String} {records : List Record}
    {collision : Collision}
    (hcollision : collision ∈ (registry.answers (callsOf file records)).reduceOption) :
    collision.file = file := by
  rw [List.reduceOption_mem_iff] at hcollision
  induction records generalizing registry with
  | nil => cases hcollision
  | cons record records ih =>
    rcases List.mem_cons.mp hcollision with hfirst | hlater
    · obtain ⟨previous, -, rfl⟩ := Option.map_eq_some_iff.mp hfirst.symm
      rfl
    · exact ih hlater

/-! ### Reports of a file -/

/-- What a report says before the file is taken in: every type is listed once, as an enum or as an
object, and nothing is wrong. -/
def Outcome.IsListed : Outcome → Prop
  | .failed _ => True
  | .converted report records =>
    writtenCount report = records.length ∧ report.warnings = [] ∧ report.errors = []

theorem length_written_add (convention : Convention) (output : Path) (records : List Record) :
    (written convention output .enum records).length +
      (written convention output .object records).length = records.length := by
  have hkinds : (fun record : Record => decide (kindOf record.type = .object)) =
      fun record => !decide (kindOf record.type = .enum) := by
    funext record
    cases kindOf record.type <;> rfl
  rw [written, written, List.length_map, List.length_map, hkinds]
  exact (List.length_eq_length_filter_add _).symm

theorem isListed_convertSource (settings : Settings) (tree : FileTree) (output source : Path) :
    (convertSource settings tree output source).IsListed := by
  unfold convertSource
  cases readSource settings.convention tree source with
  | error fault => trivial
  | ok file => exact ⟨length_written_add _ _ _, rfl, rfl⟩

/-! ### The balance -/

/-- The warnings of the reports are the collisions in their order, each in the report of the file
that took the name over. -/
def WarnsOf (reports : List FileReport) (collisions : List Collision) : Prop :=
  ∃ parts : List (List Collision), parts.flatten = collisions ∧
    List.Forall₂ (fun (report : FileReport) part =>
      report.warnings = part.map (·.message) ∧ ∀ collision ∈ part, collision.file = report.input)
      reports parts

theorem WarnsOf.total_warnings {reports : List FileReport} {collisions : List Collision}
    (h : WarnsOf reports collisions) : total reports (·.warnings.length) = collisions.length := by
  obtain ⟨parts, rfl, hparts⟩ := h
  induction hparts with
  | nil => rfl
  | @cons report part reports parts hreport _ ih =>
    change report.warnings.length + total reports _ = _
    rw [ih, hreport.1, List.length_map, List.flatten_cons, List.length_append]

theorem WarnsOf.concat {reports : List FileReport} {collisions : List Collision}
    (h : WarnsOf reports collisions) {report : FileReport} {part : List Collision}
    (hwarnings : report.warnings = part.map (·.message))
    (hfile : ∀ collision ∈ part, collision.file = report.input) :
    WarnsOf (reports ++ [report]) (collisions ++ part) := by
  obtain ⟨parts, rfl, hparts⟩ := h
  refine ⟨parts ++ [part], ?_, ?_⟩
  · rw [List.flatten_append, List.flatten_singleton]
  · exact List.rel_append hparts (.cons ⟨hwarnings, hfile⟩ .nil)

/-- The accounts after some files: each of them has failed or is reported, and the reports list as
many types as there were calls. -/
structure Balanced (gathered : Gathered) (files : Nat) : Prop where
  files_eq : files = gathered.reports.length + gathered.failures.length
  called : ∃ calls, gathered.registry = .ofCalls calls ∧
    total gathered.reports writtenCount = calls.length
  warned : WarnsOf gathered.reports gathered.registry.collisions
  errors_eq : ∀ report ∈ gathered.reports, report.errors = []

theorem balanced_nil : Balanced {} 0 where
  files_eq := rfl
  called := ⟨[], rfl, rfl⟩
  warned := ⟨[], rfl, .nil⟩
  errors_eq := List.forall_mem_nil _

theorem Balanced.add {gathered : Gathered} {files : Nat} (h : Balanced gathered files)
    {outcome : Outcome} (hlisted : outcome.IsListed) :
    Balanced (gathered.add outcome) (files + 1) := by
  cases outcome with
  | failed failure =>
    refine ⟨?_, h.called, h.warned, h.errors_eq⟩
    change files + 1 = gathered.reports.length + (gathered.failures ++ [failure]).length
    rw [h.files_eq, List.length_append, List.length_singleton, Nat.add_assoc]
  | converted report records =>
    obtain ⟨hcount, hwarnings, herrors⟩ := hlisted
    obtain ⟨calls, hregistry, htotal⟩ := h.called
    have hlater : registerAll gathered.registry report.input records =
        gathered.registry.enterAll (callsOf report.input records) :=
      registerAll_eq_enterAll _ _ _
    refine ⟨?_, ⟨calls ++ callsOf report.input records, ?_, ?_⟩, ?_, ?_⟩
    · change files + 1 = (gathered.reports ++ [_]).length + gathered.failures.length
      rw [h.files_eq, List.length_append, List.length_singleton]
      omega
    · change registerAll _ _ _ = _
      rw [hlater, hregistry]
      exact (List.foldl_append ..).symm
    · change total (gathered.reports ++ [_]) writtenCount = _
      rw [total_append, htotal, List.length_append, callsOf, List.length_map, ← hcount]
      rfl
    · change WarnsOf (gathered.reports ++ [_]) (registerAll _ _ _).collisions
      rw [hlater, Registry.collisions_enterAll]
      refine h.warned.concat ?_ fun collision hcollision => file_of_mem_answers hcollision
      change report.warnings ++ _ = _
      rw [hwarnings, List.drop_left, List.nil_append]
    · change ∀ other ∈ gathered.reports ++ [_], other.errors = []
      rw [List.forall_mem_append, List.forall_mem_singleton]
      exact ⟨h.errors_eq, herrors⟩

theorem balanced_foldl {gathered : Gathered} {files : Nat} (h : Balanced gathered files)
    {outcomes : List Outcome} (hlisted : ∀ outcome ∈ outcomes, outcome.IsListed) :
    Balanced (outcomes.foldl Gathered.add gathered) (files + outcomes.length) := by
  induction outcomes generalizing gathered files with
  | nil => exact h
  | cons outcome outcomes ih =>
    obtain ⟨houtcome, houtcomes⟩ := List.forall_mem_cons.mp hlisted
    rw [List.foldl_cons, List.length_cons, Nat.add_comm outcomes.length, ← Nat.add_assoc]
    exact ih (h.add houtcome) houtcomes

theorem balanced_gather (settings : Settings) (tree : FileTree) (output : Path)
    (sources : List Path) :
    Balanced (gather (sources.map (convertSource settings tree output))) sources.length := by
  have hlisted : ∀ outcome ∈ sources.map (convertSource settings tree output),
      outcome.IsListed := by
    intro outcome houtcome
    obtain ⟨source, -, rfl⟩ := List.mem_map.mp houtcome
    exact isListed_convertSource settings tree output source
  have hbalanced := balanced_foldl balanced_nil hlisted
  rwa [Nat.zero_add, List.length_map] at hbalanced

theorem Balanced.length_add_length {gathered : Gathered} {files : Nat}
    (h : Balanced gathered files) :
    total gathered.reports writtenCount = gathered.registry.enums.length +
      gathered.registry.objects.length + gathered.registry.collisions.length := by
  obtain ⟨calls, hregistry, htotal⟩ := h.called
  rw [htotal, hregistry, Registry.length_schemas_ofCalls,
    ← Registry.length_collisions_ofCalls calls, Nat.add_comm]

/-- **The accounts of a run balance.** Every file that is found is reported or has failed; the types
that the reports list are as many as the names and the collisions of the run together; the warnings
are the collisions, each in the report of the file that took the name over; the errors are the
failures; and no name stands twice. -/
theorem accounts_balance
    (hrun : convertDirectory settings stamp input output tree = .ok run tree') :
    run.summary.files = run.reports.length + run.failures.length ∧
    (total run.reports fun report => report.enums.length + report.objects.length : Int) =
      run.summary.enums + run.summary.objects + run.summary.collisions ∧
    WarnsOf run.reports run.collisions ∧
    run.summary.collisions = run.collisions.length ∧
    (run.summary.warnings : Int) = run.summary.collisions ∧
    run.summary.errors = run.failures.length ∧
    run.summary.enums = run.enumNames.length ∧ run.enumNames.Nodup ∧
    run.summary.objects = run.objectNames.length ∧ run.objectNames.Nodup := by
  obtain ⟨used, sources, -, -, rfl, -⟩ := convertDirectory_eq_ok hrun
  have h := balanced_gather used tree output sources
  obtain ⟨calls, hregistry, -⟩ := h.called
  have hreflects := Registry.reflects_ofCalls calls
  rw [← hregistry] at hreflects
  set gathered := gather (sources.map (convertSource used tree output))
  refine ⟨?_, ?_, h.warned, rfl, ?_, ?_, ?_, hreflects.nodupKeys_schemas .enum, ?_,
    hreflects.nodupKeys_schemas .object⟩
  · change (sources.length : Int) = _
    rw [h.files_eq]
    exact Int.natCast_add _ _
  · refine (congrArg Nat.cast h.length_add_length).trans ?_
    rw [Int.natCast_add, Int.natCast_add]
    rfl
  · exact congrArg Nat.cast h.warned.total_warnings
  · change total gathered.reports (·.errors.length) + gathered.failures.length = _
    rw [total_eq_zero, Nat.zero_add]
    · rfl
    · intro report hreport
      rw [h.errors_eq report hreport, List.length_nil]
  · exact congrArg Nat.cast (List.length_map _).symm
  · exact congrArg Nat.cast (List.length_map _).symm

/-! ### Two files with one name -/

def rivalText : String := "#%RAML 1.0 Library\ntypes:\n  Foo:\n"

/-- Two libraries that declare a type of the same name. -/
def rivalTree : FileTree where
  nodes := [(["in"], .directory), (["in", "a.raml"], .file (Text.Utf8.encode rivalText)),
    (["in", "enums"], .directory), (["in", "enums", "b.raml"], .file (Text.Utf8.encode rivalText))]

def rivalSources : List Path := [⟨"", ["in", "a.raml"]⟩, ⟨"", ["in", "enums", "b.raml"]⟩]

def rivalCollision : Collision := ⟨"Foo", .object, "in/a.raml", "in/enums/b.raml"⟩

set_option maxRecDepth 100000 in
theorem rival_evaluated :
    (discover twinSettings rivalTree twinInput).toOption = some rivalSources ∧
    typesRead twinSettings.convention rivalTree rivalSources =
      [{ name := "Foo" }, { name := "Foo" }] ∧
    (let registry :=
      (gather (rivalSources.map (convertSource twinSettings rivalTree twinOutput))).registry
    (registry.enums.keys, registry.objects.keys, registry.collisions) =
      ([], ["Foo"], [rivalCollision])) ∧
    ((createDirectories twinOutput >>= fun _ => writeUnchecked ⟨twinSettings.output, "0"⟩
        (filesOf twinSettings twinOutput [{ name := "Foo" }, { name := "Foo" }])).answer?
      rivalTree).isSome := by
  decide +kernel

/-- Two types are listed for a name and a collision, of which the second file is warned. -/
theorem accounts_balance_rivals : ∃ run tree',
    convertDirectory twinSettings "0" twinInput twinOutput rivalTree = .ok run tree' ∧
      run.collisions = [rivalCollision] ∧ WarnsOf run.reports [rivalCollision] ∧
      run.summary.warnings = 1 ∧ run.summary.files = 2 ∧
      run.reports.length + run.failures.length = 2 ∧
      total run.reports (fun report => report.enums.length + report.objects.length) = 2 := by
  obtain ⟨hdiscover, htypes, hregistered, hwrites⟩ := rival_evaluated
  have hsources := eq_ok_of_toOption_eq_some hdiscover
  obtain ⟨run, tree', hrun⟩ := exists_run_of_writeUnchecked inUse_twinSettings hsources rfl rfl
    htypes hwrites
  obtain ⟨hfiles, htotal, hwarns, hcount, hwarnings, -, henums, -, hobjects, -⟩ :=
    accounts_balance hrun
  obtain ⟨used, sources, hused, hfound, rfl, -⟩ := convertDirectory_eq_ok hrun
  obtain rfl := Except.ok.inj (inUse_twinSettings.symm.trans hused)
  obtain rfl := Except.ok.inj (hsources.symm.trans hfound)
  obtain ⟨henumNames, hregistered⟩ := Prod.mk.inj hregistered
  obtain ⟨hobjectNames, hcollisions⟩ := Prod.mk.inj hregistered
  set gathered := gather (rivalSources.map (convertSource twinSettings rivalTree twinOutput))
  set run := gathered.run twinOutput rivalSources.length
  have hrunCollisions : run.collisions = [rivalCollision] := hcollisions
  rw [show run.enumNames = [] from henumNames] at henums
  rw [show run.objectNames = ["Foo"] from hobjectNames] at hobjects
  rw [hrunCollisions] at hwarns hcount
  have hrunFiles : run.summary.files = 2 := rfl
  simp only [List.length_nil, List.length_singleton] at henums hobjects hcount
  exact ⟨run, tree', hrun, hrunCollisions, hwarns, by omega, hrunFiles, by omega, by omega⟩

end RamlSchema.Conversion
