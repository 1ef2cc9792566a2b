import RamlSchema.Proofs.Files.Change
import RamlSchema.Proofs.Text.Utf8

/-!
# What an operation leaves in either case

An operation on files may fail halfway, and then the tree is what its steps so far have made of it.
Directories are only ever created on the way of a path, at the places of its leading parts. Writing
a file that fails leaves no trace of the file: the temporary one is the only change before the last
step, and it is taken away again.
-/

namespace RamlSchema.Files

open FileTree

variable {tree tree' tree'' : FileTree} {path : Path} {location : Location}

/-! ### Places -/

/-- The place that a path names once its double dots are taken back. -/
def Path.place (here : Location) (path : Path) : Location := (path.absolute here).parts

def Path.lead (path : Path) (count : Nat) : Path := { path with parts := path.parts.take count }

/-- The place of some leading part of a path, or of the whole path. -/
def OnWay (here : Location) (path : Path) (location : Location) : Prop :=
  ∃ count, location = (path.lead count).place here

theorem onWay_place (here : Location) (path : Path) : OnWay here path (path.place here) :=
  ⟨path.parts.length, by rw [Path.lead, List.take_length]⟩

theorem OnWay.of_parent {here : Location} (h : OnWay here path.parent location) :
    OnWay here path location := by
  obtain ⟨count, rfl⟩ := h
  refine ⟨min count (path.parts.length - 1), ?_⟩
  rw [Path.lead, Path.lead, Path.parent, List.dropLast_eq_take, List.take_take]

def Location.step (location : Location) (part : String) : Location :=
  if part = ".." then location.dropLast else location ++ [part]

theorem place_eq_foldl (here : Location) (path : Path) :
    path.place here = path.parts.foldl Location.step (if path.isAbsolute then [] else here) := rfl

theorem eq_step_of_walkPart {part : String} {next : Location}
    (hpart : tree.walkPart location part = .ok next) : next = location.step part := by
  obtain ⟨-, ⟨rfl, rfl⟩ | ⟨hup, -, rfl⟩⟩ := walkPart_eq_ok_iff.mp hpart
  · rw [Location.step, if_pos rfl]
  · rw [Location.step, if_neg hup]

theorem eq_foldl_of_foldlM_walkPart {parts : List String} {start : Location}
    (hwalk : parts.foldlM tree.walkPart start = .ok location) :
    location = parts.foldl Location.step start := by
  induction parts generalizing start with
  | nil => exact (Except.ok.inj hwalk).symm
  | cons part parts ih =>
    rw [List.foldlM_cons] at hwalk
    obtain ⟨next, hpart, hwalk⟩ := bind_eq_ok_iff.mp hwalk
    rw [List.foldl_cons, ← eq_step_of_walkPart hpart]
    exact ih hwalk

/-- Walking goes back at double dots, so it ends in the place of the path if it ends at all. -/
theorem eq_place_of_locate (hlocate : tree.locate path = .ok location) :
    location = path.place tree.here :=
  eq_foldl_of_foldlM_walkPart (locate_eq_ok_iff.mp hlocate).2

/-- Names that lead on do so below the place that they start from. -/
theorem foldl_step_eq_append {names : List String} (hnames : ".." ∉ names) (start : Location) :
    names.foldl Location.step start = start ++ names := by
  induction names generalizing start with
  | nil => exact (List.append_nil start).symm
  | cons name names ih =>
    rw [List.mem_cons, not_or] at hnames
    rw [List.foldl_cons, ih hnames.2, Location.step, if_neg (Ne.symm hnames.1), List.append_assoc,
      List.singleton_append]

theorem place_within (here : Location) {names : List String} (hnames : ".." ∉ names) :
    (path.within names).place here = path.place here ++ names := by
  rw [place_eq_foldl, place_eq_foldl, Path.within, List.foldl_append, foldl_step_eq_append hnames]
  rfl

/-- What lies on the way of a path below another one lies on the way there, or behind its place by
some of the names. -/
theorem OnWay.exists_take {here : Location} {names : List String} (hnames : ".." ∉ names)
    (h : OnWay here (path.within names) location) :
    OnWay here path location ∨ ∃ count, location = path.place here ++ names.take count := by
  obtain ⟨count, rfl⟩ := h
  by_cases hcount : count ≤ path.parts.length
  · refine .inl ⟨count, ?_⟩
    rw [Path.lead, Path.lead, Path.within, List.take_append_of_le_length hcount]
  · have htake : ".." ∉ names.take (count - path.parts.length) :=
      fun hin => hnames (List.mem_of_mem_take hin)
    refine .inr ⟨count - path.parts.length, ?_⟩
    rw [← foldl_step_eq_append htake, place_eq_foldl, place_eq_foldl, ← List.foldl_append,
      Path.lead, Path.within]
    simp only [List.take_append, List.take_of_length_le (Nat.le_of_not_le hcount)]
    rfl

theorem OnWay.of_within {here : Location} {names : List String} (hnames : ".." ∉ names)
    (h : OnWay here (path.within names) location) :
    OnWay here path location ∨ path.place here <+: location := by
  refine (h.exists_take hnames).imp_right ?_
  rintro ⟨count, rfl⟩
  exact List.prefix_append _ _

/-- Without double dots, nothing on the way of a path lies below its place. -/
theorem not_onWay_below {here : Location} (hup : ".." ∉ path.parts) {names : List String}
    (hnames : names ≠ []) : ¬OnWay here path (path.place here ++ names) := by
  rintro ⟨count, hlocation⟩
  have htake : ".." ∉ path.parts.take count := fun hin => hup (List.mem_of_mem_take hin)
  rw [place_eq_foldl, place_eq_foldl, foldl_step_eq_append hup, Path.lead,
    foldl_step_eq_append htake] at hlocation
  have hlength := congrArg List.length hlocation
  simp only [List.length_append, List.length_take] at hlength
  have hpositive := List.length_pos_iff.mpr hnames
  change _ = (if path.isAbsolute then [] else here).length + _ at hlength
  omega

/-! ### Lengths -/

theorem Path.text_within {names : List String} (hnames : names ≠ []) :
    (path.within names).text = path.root ++ Text.joinWith "/" (path.parts ++ names) := by
  have hparts : (path.within names).parts.isEmpty = false := by simp [within, hnames]
  rw [text, hparts, Bool.and_false, if_neg Bool.false_ne_true]
  rfl

/-- A path is no longer than those that lead on from it. -/
theorem Path.isTooLong_of_append {names more : List String} (hnames : names ≠ [])
    (hlong : (path.within (names ++ more)).isTooLong = false) :
    (path.within names).isTooLong = false := by
  by_cases hmore : more = []
  · rwa [hmore, List.append_nil] at hlong
  have hparts : path.parts ++ names ≠ [] := by simp [hnames]
  have htext : (path.within (names ++ more)).text =
      (path.within names).text ++ ("/" ++ Text.joinWith "/" more) := by
    have hall : names ++ more ≠ [] := by simp [hnames]
    rw [text_within hall, text_within hnames, ← List.append_assoc, Text.joinWith,
      String.intercalate_append_of_ne_nil hparts hmore]
    simp only [Text.joinWith, String.append_assoc]
  rw [isTooLong, decide_eq_false_iff_not, htext, Text.Utf8.size_append] at hlong
  rw [isTooLong, decide_eq_false_iff_not]
  omega

/-! ### Trees that an action leaves -/

/-- The tree that an action leaves, whether it succeeds or fails. -/
def Action.after {ε α : Type} (action : Action ε α) (tree : FileTree) : FileTree :=
  match action tree with
  | .ok _ tree' => tree'
  | .error _ tree' => tree'

section Steps

variable {ε α β : Type} {action : Action ε α}

theorem after_get_bind (next : FileTree → Action ε β) (tree : FileTree) :
    (get >>= next : Action ε β).after tree = (next tree).after tree := rfl

theorem after_of_eq_ok {a : α} (hrun : action tree = .ok a tree') : action.after tree = tree' := by
  rw [Action.after, hrun]

theorem after_of_eq_error {e : ε} (hrun : action tree = .error e tree') :
    action.after tree = tree' := by
  rw [Action.after, hrun]

theorem after_bind_of_eq_ok {a : α} (hrun : action tree = .ok a tree')
    (next : α → Action ε β) : (action >>= next).after tree = (next a).after tree' := by
  rw [Action.after, Action.after, Action.bind_of_eq_ok hrun]

theorem after_bind_of_eq_error {e : ε} (hrun : action tree = .error e tree')
    (next : α → Action ε β) : (action >>= next).after tree = tree' :=
  after_of_eq_error (Action.bind_of_eq_error hrun next)

theorem after_bind_pure (action : Action ε α) (b : β) (tree : FileTree) :
    (action >>= fun _ => pure b).after tree = action.after tree := by
  cases hrun : action tree with
  | ok a tree' =>
    rw [after_bind_of_eq_ok hrun, after_of_eq_ok hrun]
    rfl
  | error e tree' => rw [after_bind_of_eq_error hrun, after_of_eq_error hrun]

/-- What one step leaves, the next one starts from, unless there is no next one. -/
theorem after_bind {R : FileTree → FileTree → Prop} {next : α → Action ε β}
    (htrans : ∀ {tree tree' tree''}, R tree tree' → R tree' tree'' → R tree tree'')
    (hfirst : R tree (action.after tree))
    (hnext : ∀ a between, action tree = .ok a between → R tree between →
      R between ((next a).after between)) :
    R tree ((action >>= next).after tree) := by
  have hbind : (action >>= next).after tree = match action tree with
      | .ok a between => (next a).after between
      | .error _ between => between := by
    change Action.after (EStateM.bind action next) tree = _
    unfold Action.after EStateM.bind
    cases action tree <;> rfl
  rw [hbind]
  cases hrun : action tree with
  | error e between => rwa [after_of_eq_error hrun] at hfirst
  | ok a between =>
    rw [after_of_eq_ok hrun] at hfirst
    exact htrans hfirst (hnext a between hrun hfirst)

end Steps

/-! ### Directories on the way -/

/-- The second tree is the first with directories in some of the places where nothing was. -/
structure MadeIn (places : Location → Prop) (tree tree' : FileTree) : Prop where
  here_eq : tree'.here = tree.here
  wellFormed : tree'.WellFormed
  node : ∀ location, tree'.node? location = tree.node? location ∨
    places location ∧ tree.node? location = none ∧ tree'.node? location = some .directory

variable {places places' : Location → Prop}

theorem MadeIn.refl (htree : tree.WellFormed) (places : Location → Prop) :
    MadeIn places tree tree := ⟨rfl, htree, fun _ => .inl rfl⟩

theorem MadeIn.mono (h : MadeIn places tree tree')
    (hplaces : ∀ location, places location → places' location) : MadeIn places' tree tree' :=
  ⟨h.here_eq, h.wellFormed, fun location => (h.node location).imp_right (.imp_left (hplaces _))⟩

theorem MadeIn.trans (h : MadeIn places tree tree') (h' : MadeIn places tree' tree'') :
    MadeIn places tree tree'' := by
  refine ⟨h'.here_eq.trans h.here_eq, h'.wellFormed, fun location => ?_⟩
  rcases h'.node location with hsame | ⟨hplace, hnone, hnew⟩
  · rw [hsame]
    exact h.node location
  · rcases h.node location with hsame | ⟨-, -, hdirectory⟩
    · exact .inr ⟨hplace, hsame ▸ hnone, hnew⟩
    · rw [hdirectory] at hnone
      cases hnone

theorem MadeIn.madeFrom (h : MadeIn places tree tree') : tree'.MadeFrom tree :=
  ⟨h.here_eq, fun location => (h.node location).imp_right And.right⟩

theorem MadeIn.file_iff (h : MadeIn places tree tree') {bytes : List UInt8} :
    tree'.node? location = some (.file bytes) ↔ tree.node? location = some (.file bytes) := by
  rcases h.node location with hsame | ⟨-, hnone, hdirectory⟩
  · rw [hsame]
  · rw [hnone, hdirectory]
    exact iff_of_false nofun nofun

theorem after_ensureDirectory (tree : FileTree) (path : Path) :
    (ensureDirectory path).after tree = tree ∨
      ∃ location, tree.locate path = .ok location ∧ tree.node? location = none ∧
        (ensureDirectory path).after tree = tree.put location .directory := by
  unfold ensureDirectory Action.after
  rw [Action.get_bind]
  cases hvacancy : tree.vacancy path with
  | ok location =>
    obtain ⟨hlocate, hnone⟩ := vacancy_eq_ok_iff.mp hvacancy
    exact .inr ⟨location, hlocate, hnone, rfl⟩
  | error cause => cases tree.isDirectory path <;> exact .inl rfl

theorem ensureDirectory_made (htree : tree.WellFormed) (path : Path) :
    MadeIn (· = path.place tree.here) tree ((ensureDirectory path).after tree) := by
  rcases after_ensureDirectory tree path with hsame | ⟨location, hlocate, hnone, hput⟩
  · rw [hsame]
    exact .refl htree _
  · rw [hput]
    have hvacant : tree.node? location ≠ some .directory := by rw [hnone]; nofun
    obtain ⟨directory, name, rfl, hdirectory⟩ := htree.exists_of_locate hlocate hvacant
    refine ⟨rfl, htree.put hdirectory hvacant _, fun other => ?_⟩
    rw [node?_put tree (by simp)]
    split
    case isTrue hother =>
      refine .inr ⟨?_, hother ▸ hnone, rfl⟩
      rw [hother, eq_place_of_locate hlocate]
    case isFalse => exact .inl rfl

theorem ensureDirectoriesTo_made (htree : tree.WellFormed) (path : Path) (count : Nat) :
    MadeIn (OnWay tree.here path) tree ((ensureDirectoriesTo path count).after tree) := by
  have hlead {between : FileTree} (hbetween : between.WellFormed)
      (hhere : between.here = tree.here) (count : Nat) :
      MadeIn (OnWay tree.here path) between ((ensureDirectory (path.lead count)).after between) :=
    (ensureDirectory_made hbetween _).mono fun location hlocation =>
      ⟨count, by rw [hlocation, hhere]⟩
  induction count with
  | zero => exact hlead htree rfl 0
  | succ count ih =>
    unfold ensureDirectoriesTo
    simp only
    split
    case isTrue => exact .refl htree _
    case isFalse =>
      rw [after_get_bind]
      split
      · refine after_bind MadeIn.trans ih fun _ between _ hbetween => ?_
        exact hlead hbetween.wellFormed hbetween.here_eq (count + 1)
      · exact hlead htree rfl (count + 1)

theorem ensureDirectories_made (htree : tree.WellFormed) (path : Path) :
    MadeIn (OnWay tree.here path) tree ((ensureDirectories path).after tree) :=
  ensureDirectoriesTo_made htree path _

/-- Nothing changes but in some places, and directories stay where they are. -/
structure ChangedIn (places : Location → Prop) (tree tree' : FileTree) : Prop where
  wellFormed : tree'.WellFormed
  keptIn : tree.KeptIn tree'
  node_eq : ∀ location, ¬places location → tree'.node? location = tree.node? location

theorem ChangedIn.refl (htree : tree.WellFormed) (places : Location → Prop) :
    ChangedIn places tree tree := ⟨htree, .refl tree, fun _ _ => rfl⟩

theorem ChangedIn.mono (h : ChangedIn places tree tree')
    (hplaces : ∀ location, places location → places' location) : ChangedIn places' tree tree' :=
  ⟨h.wellFormed, h.keptIn, fun location hlocation => h.node_eq location (mt (hplaces _) hlocation)⟩

theorem ChangedIn.trans (h : ChangedIn places tree tree') (h' : ChangedIn places tree' tree'') :
    ChangedIn places tree tree'' :=
  ⟨h'.wellFormed, h.keptIn.trans h'.keptIn, fun location hlocation =>
    (h'.node_eq location hlocation).trans (h.node_eq location hlocation)⟩

theorem MadeIn.changedIn (h : MadeIn places tree tree') : ChangedIn places tree tree' := by
  refine ⟨h.wellFormed, h.madeFrom.keptIn, fun location hlocation => ?_⟩
  rcases h.node location with hsame | ⟨hplace, -⟩
  · exact hsame
  · exact absurd hplace hlocation

theorem directory_of_onWay (hdirectory : tree.isDirectory path = true)
    (hway : OnWay tree.here path location) : tree.node? location = some .directory := by
  obtain ⟨found, hlocate, hfound⟩ := isDirectory_iff.mp hdirectory
  obtain ⟨count, rfl⟩ := hway
  have hwalk := (locate_eq_ok_iff.mp hlocate).2
  rw [walk, ← List.take_append_drop count path.parts, List.foldlM_append] at hwalk
  obtain ⟨between, hfront, hback⟩ := bind_eq_ok_iff.mp hwalk
  have hplace : between = (path.lead count).place tree.here := eq_foldl_of_foldlM_walkPart hfront
  rw [← hplace]
  cases hdrop : path.parts.drop count with
  | nil =>
    rw [hdrop] at hback
    rw [Except.ok.inj hback]
    exact hfound
  | cons part parts =>
    rw [hdrop, List.foldlM_cons] at hback
    obtain ⟨next, hpart, -⟩ := bind_eq_ok_iff.mp hback
    exact (walkPart_eq_ok_iff.mp hpart).1

/-! ### Files that are not written -/

variable {bytes : List UInt8} {fault : Fault}

theorem eq_of_fileLocation_eq_error (hrun : fileLocation path tree = .error fault tree') :
    tree = tree' := by
  unfold fileLocation at hrun
  simp only at hrun
  split at hrun
  case isTrue => exact Action.eq_of_throw_eq_error hrun
  case isFalse =>
    rw [Action.get_bind] at hrun
    cases hlocate : tree.locate path with
    | error cause =>
      rw [hlocate] at hrun
      exact Action.eq_of_throw_eq_error hrun
    | ok location =>
      rw [hlocate] at hrun
      simp only at hrun
      split at hrun
      case isTrue => exact Action.eq_of_throw_eq_error hrun
      case isFalse => cases hrun

theorem eq_of_writeDirectly_eq_error
    (hrun : writeDirectly path bytes tree = .error fault tree') : tree = tree' := by
  rcases Action.bind_eq_error_iff.mp hrun with hlocation | ⟨location, between, -, hput⟩
  · exact eq_of_fileLocation_eq_error hlocation
  · cases hput

theorem eq_of_createIn_eq_error {directory : Location} {name : String}
    (hrun : createIn directory name tree = .error fault tree') : tree = tree' := by
  unfold createIn at hrun
  simp only at hrun
  split at hrun
  case isTrue => exact Action.eq_of_throw_eq_error hrun
  case isFalse =>
    split at hrun
    case isTrue => exact Action.eq_of_throw_eq_error hrun
    case isFalse =>
      rw [Action.get_bind] at hrun
      split at hrun
      case isTrue => exact Action.eq_of_throw_eq_error hrun
      case isFalse => cases hrun

theorem eq_of_moveTo_eq_error {source : Location}
    (hrun : moveTo source bytes path tree = .error fault tree') : tree = tree' := by
  rcases moveTo_cases source bytes path tree with ⟨fault', heq⟩ | ⟨location, -, -, heq⟩
  · rw [heq] at hrun
    cases hrun
    rfl
  · rw [heq] at hrun
    cases hrun

/-- Where the last step fails, the temporary file is all that there is to take away. -/
theorem writeAtomically_eq_error (htree : tree.WellFormed) {stamp : String}
    (hrun : writeAtomically stamp path bytes tree = .error fault tree') :
    MadeIn (fun _ => False) tree tree' := by
  unfold writeAtomically at hrun
  rw [Action.get_bind] at hrun
  cases hstatus : tree.status path.parent with
  | error cause =>
    rw [hstatus] at hrun
    rw [← Action.eq_of_throw_eq_error hrun]
    exact .refl htree _
  | ok found =>
    obtain ⟨directory, node⟩ := found
    rw [hstatus] at hrun
    rcases Action.bind_eq_error_iff.mp hrun with hcreate | ⟨temporary, between, hcreate, hrun⟩
    · rw [← eq_of_createIn_eq_error hcreate]
      exact .refl htree _
    · obtain ⟨rfl, hvacant, rfl, -⟩ := createIn_eq_ok hcreate
      rw [Action.modify_bind, Action.tryCatch_eq_error_iff] at hrun
      obtain ⟨fault', between, hmove, hremove⟩ := hrun
      rw [Action.modify_bind] at hremove
      rw [← Action.eq_of_throw_eq_error hremove, ← eq_of_moveTo_eq_error hmove]
      have hne : directory ++ [temporaryName stamp path.name] ≠ [] := by simp
      have hsame := node?_remove_eq htree hne hvacant fun other hother =>
        (sameBut_put (tree.put _ (.file [])) hne (.file bytes) other hother).trans
          (sameBut_put tree hne (.file []) other hother)
      exact ⟨rfl, htree.of_node?_eq rfl hsame, fun other => .inl (hsame other)⟩

end RamlSchema.Files
