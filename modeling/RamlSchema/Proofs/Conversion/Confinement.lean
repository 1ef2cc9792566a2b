import RamlSchema.Proofs.Conversion.KeptTypes

/-!
# Where a conversion changes files

A conversion creates the output directory with the directories of its kinds, and then writes file
after file; and every write stays on the way of its path. So all that changes lies below the output
directory or on the way to it, but for the paths of types: their names are taken from the source as
they are, and double dots in a name lead out of the output directory again.
-/

namespace RamlSchema.Conversion

open Files (Action.after ChangedIn FileTree Location MadeIn OnWay Path after_bind
  after_bind_of_eq_error after_bind_of_eq_ok after_bind_pure after_of_eq_error after_of_eq_ok)
open Raml (Declaration)
open Report (Kind Run)

variable {tree tree' : FileTree} {settings used : Settings} {input output path : Path}
  {sources : List Path} {location : Location}

/-! ### Single steps -/

theorem after_onFiles {α : Type} (action : Files.Action Files.Fault α) (tree : FileTree) :
    (onFiles action).after tree = action.after tree := by
  change Action.after (EStateM.adaptExcept _ action) tree = _
  unfold Action.after EStateM.adaptExcept
  cases action tree <;> rfl

theorem Writer.write_changed (htree : tree.WellFormed) (writer : Writer) (path : Path)
    (document : Json) (validate : Bool) :
    ChangedIn (OnWay tree.here path) tree
      ((writer.write path document validate).after tree) := by
  cases hrun : writer.write path document validate tree with
  | ok count tree' =>
    rw [after_of_eq_ok hrun]
    obtain ⟨-, -, -, between, place, h⟩ := Writer.write_eq_ok htree hrun
    refine ⟨h.wrote.wellFormed, h.made.madeFrom.keptIn.trans h.wrote.keptIn, ?_⟩
    intro other hother
    have hplace : place = path.place tree.here := by
      rw [Files.eq_place_of_locate h.wrote.locate_eq, h.wrote.here_eq, h.made.here_eq]
    have hne : other ≠ place := by
      rintro rfl
      exact hother (hplace ▸ Files.onWay_place _ _)
    rw [h.sameBut other hne]
    exact h.made.changedIn.node_eq other fun hway => hother hway.of_parent
  | error fault tree' =>
    rw [after_of_eq_error hrun]
    exact (Writer.write_eq_error htree hrun).1.changedIn.mono fun _ => OnWay.of_parent

theorem writeAll_changed (htree : tree.WellFormed) (writer : Writer)
    (documents : List (Path × Json)) :
    ChangedIn (fun location => ∃ file ∈ documents, OnWay tree.here file.1 location) tree
      ((writeAll writer documents).after tree) := by
  induction documents generalizing tree with
  | nil => exact .refl htree _
  | cons file documents ih =>
    have hfirst := writer.write_changed htree file.1 file.2 true
    rw [writeAll_cons]
    refine after_bind (R := ChangedIn _) ChangedIn.trans
      (hfirst.mono fun _ hway => ⟨file, List.mem_cons_self, hway⟩) ?_
    intro _ between _ hbetween
    refine (ih hbetween.wellFormed).mono ?_
    rintro location ⟨later, hlater, hway⟩
    exact ⟨later, List.mem_cons_of_mem _ hlater, hbetween.keptIn.here_eq ▸ hway⟩

/-! ### The output directory -/

/-- A place on the way to the output directory, or in it. -/
def NearOutput (here : Location) (output : Path) (location : Location) : Prop :=
  OnWay here output location ∨ output.place here <+: location

theorem onWay_directoryOf {here : Location} {kind : Kind}
    (h : OnWay here (output.child (directoryOf kind)) location) :
    NearOutput here output location := by
  rw [child_directoryOf] at h
  exact h.of_within (by cases kind <;> decide)

/-- A place on the way to the output directory, or to that of a kind. -/
def OnWayOut (here : Location) (output : Path) (location : Location) : Prop :=
  OnWay here output location ∨ ∃ kind, OnWay here (output.child (directoryOf kind)) location

theorem createDirectories_madeOnWay (htree : tree.WellFormed) (output : Path) :
    MadeIn (OnWayOut tree.here output) tree ((createDirectories output).after tree) := by
  have hstep {between : FileTree} (hbetween : MadeIn (OnWayOut tree.here output) tree between)
      {path : Path} (hpath : ∀ location, OnWay tree.here path location →
        OnWayOut tree.here output location) :
      MadeIn (OnWayOut tree.here output) between
        ((onFiles (Files.ensureDirectories path)).after between) := by
    rw [after_onFiles]
    refine (Files.ensureDirectories_made hbetween.wellFormed path).mono fun location hway => ?_
    exact hpath location (hbetween.here_eq ▸ hway)
  refine after_bind MadeIn.trans (hstep (.refl htree _) fun _ => .inl) ?_
  intro _ between _ hbetween
  refine after_bind MadeIn.trans (hstep hbetween fun _ hway => .inr ⟨.enum, hway⟩) ?_
  intro _ between' _ hbetween'
  exact hstep (hbetween.trans hbetween') fun _ hway => .inr ⟨.object, hway⟩

theorem createDirectories_made (htree : tree.WellFormed) (output : Path) :
    MadeIn (NearOutput tree.here output) tree ((createDirectories output).after tree) := by
  refine (createDirectories_madeOnWay htree output).mono ?_
  rintro location (hway | ⟨kind, hway⟩)
  · exact .inl hway
  · exact onWay_directoryOf hway

/-! ### Whole runs -/

/-- A conversion either stops before it changes anything, or it knows its settings and source files,
creates the directories and writes the files. -/
theorem after_convertDirectory (settings : Settings) (stamp : String) (input output : Path)
    (tree : FileTree) :
    (convertDirectory settings stamp input output).after tree = tree ∨
      ∃ used sources, settings.inUse = .ok used ∧ discover used tree input = .ok sources ∧
        ∃ run, (convertDirectory settings stamp input output).after tree =
          (writeRun output ⟨used.output, stamp⟩
            (filesOf used output (typesRead used.convention tree sources)) run).after tree := by
  rcases convertDirectory_cases settings stamp input output tree with ⟨fault, hrun⟩ |
    ⟨used, sources, hused, hsources, hrun⟩
  · exact .inl (after_of_eq_error hrun)
  · exact .inr ⟨used, sources, hused, hsources, _, by rw [Action.after, hrun]; rfl⟩

/-- The output directory or what lies below it, or a directory on the way there that was missing. -/
def Allowed (tree tree' : FileTree) (output : Path) (location : Location) : Prop :=
  output.place tree.here <+: location ∨
    OnWay tree.here output location ∧ tree.node? location = none ∧
      tree'.node? location = some .directory

/-- Nothing has changed but in the output directory and in what was missing on the way there. -/
def Confined (tree tree' : FileTree) (output : Path) : Prop :=
  ∀ location, tree'.node? location ≠ tree.node? location → Allowed tree tree' output location

/-- All that lies on the way of a path lies near the output directory. -/
def StaysNear (here : Location) (output path : Path) : Prop :=
  ∀ location, OnWay here path location → NearOutput here output location

theorem allowed_of_made (hmade : MadeIn (NearOutput tree.here output) tree tree')
    (hchanged : tree'.node? location ≠ tree.node? location) :
    Allowed tree tree' output location := by
  rcases hmade.node location with hsame | ⟨hway | hbelow, hnone, hnew⟩
  · exact absurd hsame hchanged
  · exact .inr ⟨hway, hnone, hnew⟩
  · exact .inl hbelow

/-- Once the output directory is there, all that is on the way to it stays a directory, so that it
can only have changed by being made. -/
theorem allowed_of_onWay {between : FileTree}
    (hmade : MadeIn (NearOutput tree.here output) tree between)
    (houtput : between.isDirectory output = true) (hkept : between.KeptIn tree')
    (hway : OnWay tree.here output location)
    (hchanged : tree'.node? location ≠ tree.node? location) :
    Allowed tree tree' output location := by
  have hdirectory : between.node? location = some .directory :=
    Files.directory_of_onWay houtput (hmade.here_eq ▸ hway)
  have hnew := hkept.directory location hdirectory
  rcases hmade.node location with hsame | ⟨-, hnone, -⟩
  · exact absurd (hnew.trans (hsame ▸ hdirectory).symm) hchanged
  · exact .inr ⟨hway, hnone, hnew⟩

/-- A write changes nothing but what is on its own way, and the directories are made before. -/
theorem changes_of_writeRun (htree : tree.WellFormed) {writer : Writer}
    {documents : List (Path × Json)} {run : Run}
    (htree' : (writeRun output writer documents run).after tree = tree')
    (hchanged : tree'.node? location ≠ tree.node? location) :
    Allowed tree tree' output location ∨
      ¬NearOutput tree.here output location ∧
        ∃ file ∈ documents, OnWay tree.here file.1 location := by
  have hmade := createDirectories_made htree output
  cases hdirectories : createDirectories output tree with
  | error fault between =>
    have heq : tree' = between := by
      rw [← htree', writeRun, after_bind_of_eq_error hdirectories]
    rw [after_of_eq_error hdirectories, ← heq] at hmade
    exact .inl (allowed_of_made hmade hchanged)
  | ok _ between =>
    rw [after_of_eq_ok hdirectories] at hmade
    -- The writes start from the tree with the directories, so each change is one of either step.
    have hwritten : ChangedIn (fun location => ∃ file ∈ documents, OnWay tree.here file.1 location)
        between tree' := by
      rw [← htree', writeRun, after_bind_of_eq_ok hdirectories, after_bind_pure, ← hmade.here_eq]
      exact writeAll_changed hmade.wellFormed writer documents
    have houtput := (createDirectories_eq_ok htree hdirectories).2.2.1
    by_cases hway : OnWay tree.here output location
    · exact .inl (allowed_of_onWay hmade houtput hwritten.keptIn hway hchanged)
    · by_cases hbelow : output.place tree.here <+: location
      · exact .inl (.inl hbelow)
      · refine .inr ⟨not_or.mpr ⟨hway, hbelow⟩, ?_⟩
        by_contra hnot
        rcases hmade.node location with hsame | ⟨hnear, -⟩
        · exact hchanged ((hwritten.node_eq location hnot).trans hsame)
        · exact hnear.elim hway hbelow

theorem staysNear_scaffold {here : Location} {file : String} (hfile : file ∈ scaffoldNames) :
    StaysNear here output (output.child file) := by
  intro location hway
  obtain ⟨hchild, hup⟩ := child_scaffold output hfile
  rw [hchild] at hway
  exact hway.of_within hup

/-- A name without a slash leads straight into the directory of its kind. -/
theorem staysNear_outputPath {here : Location} {convention : Convention} {name : String}
    (hname : '/' ∉ name.toList) (kind : Kind) :
    StaysNear here output (outputPath convention output kind name) := by
  intro location hway
  rw [outputPath_eq_within hname] at hway
  exact hway.of_within (up_notMem_outputParts hname kind)

/-- What is not allowed to change lies on the way of the path of a type. -/
theorem changes_of_convertDirectory (htree : tree.WellFormed) {stamp : String}
    (htree' : (convertDirectory settings stamp input output).after tree = tree')
    (hchanged : tree'.node? location ≠ tree.node? location) :
    Allowed tree tree' output location ∨
      ¬NearOutput tree.here output location ∧
        ∃ used sources, settings.inUse = .ok used ∧ discover used tree input = .ok sources ∧
          ∃ type ∈ typesRead used.convention tree sources, OnWay tree.here
            (outputPath used.convention output (kindOf type) type.name) location := by
  rcases after_convertDirectory settings stamp input output tree with hsame |
    ⟨used, sources, hused, hsources, run, hrun⟩
  · rw [← htree', hsame] at hchanged
    exact absurd rfl hchanged
  · rcases changes_of_writeRun htree (hrun.symm.trans htree') hchanged with hallowed |
      ⟨hfar, file, hfile, hway⟩
    · exact .inl hallowed
    · refine .inr ⟨hfar, used, sources, hused, hsources, ?_⟩
      rcases of_mem_filesOf hfile with ⟨kind, name, type, hlast, rfl⟩ | ⟨name, hname, hpath⟩
      · obtain ⟨htype, rfl, rfl⟩ := of_lastType?_eq_some hlast
        exact ⟨type, htype, hway⟩
      · rw [hpath] at hway
        exact absurd (staysNear_scaffold hname location hway) hfar

theorem Completed.exists_file {run : Run}
    (h : Completed settings input output tree tree' run used sources) {kind : Kind} {name : String}
    (hname : name ∈ run.names kind) :
    ∃ bytes, tree'.node? ((outputPath used.convention output kind name).place tree.here) =
      some (.file bytes) := by
  obtain ⟨location, hlocate⟩ := h.locates_outputPath hname
  obtain ⟨type, htype⟩ := h.mem_names_iff.mp hname
  have hmem : ∃ file ∈ filesOf used output (typesRead used.convention tree sources),
      tree'.locate file.1 = .ok location := ⟨_, mem_filesOf_of_lastType? htype, hlocate⟩
  obtain ⟨before, file, after, hfiles, hfile, hafter⟩ := exists_last_of_exists hmem
  rw [← h.allWritten.keptIn.here_eq, ← Files.eq_place_of_locate hlocate]
  exact ⟨_, h.allWritten.last before file after location hfiles hfile hafter⟩

/-- **A conversion changes files below its output directory, unless a name leads out of it.**
However it ends, all else that changes lies on the way of the path of a type. So it is confined
whenever these paths stay near the output directory, as they do if no name has a slash; and a run
that completes does write to each of them. -/
theorem conversion_is_confined (htree : tree.WellFormed) (settings : Settings) (stamp : String)
    (input output : Path) :
    (∀ location, ((convertDirectory settings stamp input output).after tree).node? location ≠
        tree.node? location →
      Allowed tree ((convertDirectory settings stamp input output).after tree) output location ∨
        ∃ used sources, settings.inUse = .ok used ∧ discover used tree input = .ok sources ∧
          ∃ type ∈ typesRead used.convention tree sources, OnWay tree.here
            (outputPath used.convention output (kindOf type) type.name) location) ∧
    ((∀ used sources, settings.inUse = .ok used → discover used tree input = .ok sources →
        ∀ type ∈ typesRead used.convention tree sources, StaysNear tree.here output
          (outputPath used.convention output (kindOf type) type.name)) →
      Confined tree ((convertDirectory settings stamp input output).after tree) output) ∧
    (∀ (here : Location) (convention : Convention) (kind : Kind) (name : String),
      '/' ∉ name.toList → StaysNear here output (outputPath convention output kind name)) ∧
    ∀ run tree', convertDirectory settings stamp input output tree = .ok run tree' →
      ∀ used sources, settings.inUse = .ok used → discover used tree input = .ok sources →
        ∀ kind, ∀ name ∈ run.names kind, ∃ bytes,
          tree'.node? ((outputPath used.convention output kind name).place tree.here) =
            some (.file bytes) := by
  refine ⟨fun location hchanged => ?_, fun hnear location hchanged => ?_,
    fun here convention kind name hname => staysNear_outputPath hname kind, ?_⟩
  · exact (changes_of_convertDirectory htree rfl hchanged).imp_right And.right
  · rcases changes_of_convertDirectory htree rfl hchanged with hallowed |
      ⟨hfar, used, sources, hused, hsources, type, htype, hway⟩
    · exact hallowed
    · exact absurd (hnear used sources hused hsources type htype location hway) hfar
  · intro run tree' hrun used sources hused hsources kind name hname
    exact (completed_of_run htree hused hsources hrun).exists_file hname

/-- The run that writes two types to one file changes nothing but its output directory. -/
theorem conversion_is_confined_twin : ∃ run tree',
    convertDirectory twinSettings "0" twinInput twinOutput twinTree = .ok run tree' ∧
      Confined twinTree tree' twinOutput ∧
      ∃ bytes, tree'.node? ["out", "business-objects", "Foo.schema.json"] = some (.file bytes) := by
  obtain ⟨run, tree', hrun, -, hobjects, -⟩ := twin_run
  obtain ⟨-, hconfined, hnear, hwritten⟩ :=
    conversion_is_confined wellFormed_twinTree twinSettings "0" twinInput twinOutput
  refine ⟨run, tree', hrun, ?_, ?_⟩
  · rw [← after_of_eq_ok hrun]
    refine hconfined fun used sources hused hsources type htype => ?_
    obtain rfl := Except.ok.inj (inUse_twinSettings.symm.trans hused)
    obtain rfl := Except.ok.inj (discover_twinTree.symm.trans hsources)
    have hnames : ∀ type ∈ typesRead twinSettings.convention twinTree [⟨"", ["in", "a.raml"]⟩],
        '/' ∉ type.name.toList := by
      rw [twin_evaluated.2.1]
      decide
    exact hnear _ _ _ _ (hnames type htype)
  · have hname : "Foo" ∈ run.names .object := by
      change "Foo" ∈ run.objectNames
      rw [hobjects]
      decide
    exact hwritten run tree' hrun twinSettings _ inUse_twinSettings discover_twinTree .object "Foo"
      hname

/-! ### A name that leads out -/

/-- A library whose only type is named like a file two directories up, where there is one. -/
def escapingTree : FileTree where
  nodes := [(["e.schema.json"], .file [0x6D]), (["in"], .directory),
    (["in", "a.raml"], .file (Text.Utf8.encode "#%RAML 1.0 Library\ntypes:\n  ../../e:\n"))]

set_option maxRecDepth 100000 in
theorem escaping_evaluated :
    (Files.Action.answer? (convertDirectory twinSettings "0" twinInput twinOutput)
        escapingTree).map (fun (run, tree') => (run.objectNames,
          decide (tree'.node? ["e.schema.json"] = some (.file [0x6D])))) =
      some (["../../e"], false) := by
  decide +kernel

/-- The run completes and has replaced a file that lies beside the output directory. -/
theorem conversion_escapes : ∃ run tree',
    convertDirectory twinSettings "0" twinInput twinOutput escapingTree = .ok run tree' ∧
      run.objectNames = ["../../e"] ∧ ¬Confined escapingTree tree' twinOutput := by
  obtain ⟨run, tree', hrun, hresult⟩ :=
    Files.Action.exists_of_map_answer?_eq_some escaping_evaluated
  obtain ⟨hnames, hreplaced⟩ := Prod.mk.inj hresult
  refine ⟨run, tree', hrun, hnames, fun hconfined => ?_⟩
  have hchanged : tree'.node? ["e.schema.json"] ≠ escapingTree.node? ["e.schema.json"] :=
    of_decide_eq_false hreplaced
  rcases hconfined _ hchanged with hbelow | ⟨-, hnone, -⟩
  · exact absurd hbelow (by decide)
  · cases hnone

end RamlSchema.Conversion
