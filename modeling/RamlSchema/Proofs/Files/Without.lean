import RamlSchema.Proofs.Files.Outcomes

/-!
# Trees without some files

What becomes of an operation when some files are missing. An operation looks at the places on the
way of its path, and at the place of the temporary file if it writes one, and changes nothing else.
So it does the same, with the same result, in a tree that lacks files in other places.
-/

namespace RamlSchema.Files

open FileTree

variable {gone : List Location} {tree : FileTree} {path : Path} {location : Location}

def FileTree.without (tree : FileTree) (gone : List Location) : FileTree :=
  { tree with nodes := tree.nodes.filter fun (l, _) => l ∉ gone }

theorem without_nil (tree : FileTree) : tree.without [] = tree := by
  simp [without]

/-! ### Nodes -/

theorem node?_without_of_notMem (hlocation : location ∉ gone) :
    (tree.without gone).node? location = tree.node? location := by
  have hfilter := Entries.get?_filter tree.nodes (fun l => l ∉ gone) location
  rw [node?, node?, without, hfilter, decide_eq_true hlocation, if_pos rfl]

theorem node?_without_of_mem (hlocation : location ∈ gone) (hne : location ≠ []) :
    (tree.without gone).node? location = none := by
  have hfilter := Entries.get?_filter tree.nodes (fun l => l ∉ gone) location
  have hempty : ¬location.isEmpty = true := by simpa using hne
  rw [node?, if_neg hempty, without, hfilter, decide_eq_false (not_not.mpr hlocation),
    if_neg Bool.false_ne_true]

theorem put_without (hlocation : location ∉ gone) (node : Node) :
    (tree.without gone).put location node = (tree.put location node).without gone := by
  have hfilter := Entries.filter_put tree.nodes (fun l => l ∉ gone) location node
  rw [put, put, without, without, hfilter, if_pos (decide_eq_true hlocation)]

theorem remove_without (location : Location) :
    (tree.without gone).remove location = (tree.remove location).without gone := by
  rw [remove, remove, without, without, List.filter_filter, List.filter_filter]
  simp only [Bool.and_comm]

theorem names_without (location : Location) :
    (tree.without gone).names location =
      (tree.names location).filter fun name => location ++ [name] ∉ gone := by
  rw [names, names, without, List.filterMap_filter, List.filter_filterMap]
  refine List.filterMap_congr fun ⟨l, node⟩ _ => ?_
  simp only
  cases hrest : location.isPrefixOf? l with
  | none => simp
  | some rest =>
    obtain rfl := List.isPrefixOf?_eq_some_iff_append_eq.mp hrest
    match rest with
    | [] | _ :: _ :: _ => simp
    | [name] => simp [Option.filter]

/-! ### Paths that keep clear -/

/-- None of the places lies on the way of the path. -/
def Clear (gone : List Location) (here : Location) (path : Path) : Prop :=
  ∀ location ∈ gone, ¬OnWay here path location

theorem Clear.parent {here : Location} (hclear : Clear gone here path) :
    Clear gone here path.parent :=
  fun location hlocation hway => hclear location hlocation hway.of_parent

theorem Clear.lead {here : Location} (hclear : Clear gone here path) (count : Nat) :
    Clear gone here (path.lead count) := by
  rintro location hlocation ⟨count', rfl⟩
  refine hclear _ hlocation ⟨min count' count, ?_⟩
  rw [Path.lead, Path.lead, Path.lead, List.take_take]

theorem walkPart_without (hlocation : location ∉ gone) (part : String) :
    (tree.without gone).walkPart location part = tree.walkPart location part := by
  rw [walkPart, walkPart, node?_without_of_notMem hlocation]

theorem foldlM_walkPart_without {parts : List String} {start : Location}
    (hclear : ∀ count, (parts.take count).foldl Location.step start ∉ gone) :
    parts.foldlM (tree.without gone).walkPart start = parts.foldlM tree.walkPart start := by
  induction parts generalizing start with
  | nil => rfl
  | cons part parts ih =>
    have hstart : start ∉ gone := hclear 0
    rw [List.foldlM_cons, List.foldlM_cons, walkPart_without hstart]
    cases hpart : tree.walkPart start part with
    | error cause => rfl
    | ok next =>
      obtain rfl := eq_step_of_walkPart hpart
      exact ih fun count => hclear (count + 1)

section Clear

variable (hclear : Clear gone tree.here path)

include hclear

theorem locate_without : (tree.without gone).locate path = tree.locate path := by
  have hwalk : path.parts.foldlM (tree.without gone).walkPart
        (if path.isAbsolute then [] else tree.here) =
      path.parts.foldlM tree.walkPart (if path.isAbsolute then [] else tree.here) :=
    foldlM_walkPart_without fun count hmem => hclear _ hmem ⟨count, rfl⟩
  rw [locate, locate, ← hwalk]
  rfl

theorem notMem_of_locate (hlocate : tree.locate path = .ok location) : location ∉ gone := by
  intro hmem
  rw [eq_place_of_locate hlocate] at hmem
  exact hclear _ hmem (onWay_place _ _)

theorem node?_without_of_locate (hlocate : tree.locate path = .ok location) :
    (tree.without gone).node? location = tree.node? location :=
  node?_without_of_notMem (notMem_of_locate hclear hlocate)

theorem status_without : (tree.without gone).status path = tree.status path := by
  rw [status, status, locate_without hclear]
  cases hlocate : tree.locate path with
  | error cause => rfl
  | ok location =>
    simp only [bind, Except.bind, node?_without_of_locate hclear hlocate]

theorem isDirectory_without : (tree.without gone).isDirectory path = tree.isDirectory path := by
  rw [isDirectory, isDirectory, status_without hclear]

theorem look_without : (tree.without gone).look path = tree.look path := by
  rw [look, look, status_without hclear]

theorem vacancy_without : (tree.without gone).vacancy path = tree.vacancy path := by
  rw [vacancy, vacancy, locate_without hclear]
  cases hlocate : tree.locate path with
  | error cause => rfl
  | ok location => simp only [node?_without_of_locate hclear hlocate]

theorem moveFault?_without : (tree.without gone).moveFault? path = tree.moveFault? path := by
  rw [moveFault?, moveFault?, locate_without hclear]
  cases hlocate : tree.locate path with
  | error cause => rfl
  | ok location => simp only [node?_without_of_locate hclear hlocate]

end Clear

/-! ### Actions that ignore files -/

variable {ε α β : Type}

/-- Two results that differ in the missing files alone. The working directory has not changed. -/
inductive Agree (gone : List Location) (here : Location) :
    EStateM.Result ε FileTree α → EStateM.Result ε FileTree α → Prop where
  | ok {a : α} {tree : FileTree} (hhere : tree.here = here) :
      Agree gone here (.ok a tree) (.ok a (tree.without gone))
  | error {e : ε} {tree : FileTree} (hhere : tree.here = here) :
      Agree gone here (.error e tree) (.error e (tree.without gone))

/-- The action does the same in a tree without some files, and leaves them as they are. -/
def Ignores (gone : List Location) (tree : FileTree) (action : Action ε α) : Prop :=
  Agree gone tree.here (action tree) (action (tree.without gone))

theorem ignores_pure (gone : List Location) (tree : FileTree) (a : α) :
    Ignores gone tree (pure a : Action ε α) := .ok rfl

theorem ignores_throw (gone : List Location) (tree : FileTree) (e : ε) :
    Ignores gone tree (throw e : Action ε α) := .error rfl

theorem Ignores.ok_or_error {action : Action ε α} (haction : Ignores gone tree action) :
    (∃ a tree', action tree = .ok a tree' ∧
        action (tree.without gone) = .ok a (tree'.without gone) ∧ tree'.here = tree.here) ∨
      ∃ e tree', action tree = .error e tree' ∧
        action (tree.without gone) = .error e (tree'.without gone) ∧ tree'.here = tree.here := by
  unfold Ignores at haction
  generalize action tree = result at haction
  generalize action (tree.without gone) = result' at haction
  cases haction with
  | ok hhere => exact .inl ⟨_, _, rfl, rfl, hhere⟩
  | error hhere => exact .inr ⟨_, _, rfl, rfl, hhere⟩

theorem Ignores.bind {action : Action ε α} {next : α → Action ε β}
    (haction : Ignores gone tree action)
    (hnext : ∀ a between, action tree = .ok a between → between.here = tree.here →
      Ignores gone between (next a)) :
    Ignores gone tree (action >>= next) := by
  unfold Ignores
  rcases haction.ok_or_error with ⟨a, between, hrun, hrun', hhere⟩ | ⟨e, left, hrun, hrun', hhere⟩
  · rw [Action.bind_of_eq_ok hrun, Action.bind_of_eq_ok hrun', ← hhere]
    exact hnext a between hrun hhere
  · rw [Action.bind_of_eq_error hrun, Action.bind_of_eq_error hrun']
    exact .error hhere

theorem Ignores.tryCatch {action : Action ε α} {handle : ε → Action ε α}
    (haction : Ignores gone tree action)
    (hhandle : ∀ e between, action tree = .error e between → between.here = tree.here →
      Ignores gone between (handle e)) :
    Ignores gone tree (MonadExcept.tryCatch action handle) := by
  change Agree gone tree.here (EStateM.tryCatch action handle tree)
    (EStateM.tryCatch action handle (tree.without gone))
  unfold EStateM.tryCatch
  rcases haction.ok_or_error with ⟨a, after, hrun, hrun', hhere⟩ | ⟨e, left, hrun, hrun', hhere⟩
  · rw [hrun, hrun']
    exact .ok hhere
  · rw [hrun, hrun', ← hhere]
    exact hhandle e left hrun hhere

theorem ignores_put (hlocation : location ∉ gone) (node : Node) :
    Ignores gone tree (modify (·.put location node) : Action ε PUnit) := by
  change Agree gone tree.here (.ok PUnit.unit (tree.put location node))
    (.ok PUnit.unit ((tree.without gone).put location node))
  rw [put_without hlocation]
  exact .ok rfl

theorem ignores_remove (location : Location) :
    Ignores gone tree (modify (·.remove location) : Action ε PUnit) := by
  change Agree gone tree.here (.ok PUnit.unit (tree.remove location))
    (.ok PUnit.unit ((tree.without gone).remove location))
  rw [remove_without]
  exact .ok rfl

/-- Where the tree that an action gets only decides what it does next. -/
theorem ignores_get_bind {next : FileTree → Action ε β}
    (hsame : next (tree.without gone) = next tree) (hnext : Ignores gone tree (next tree)) :
    Ignores gone tree (get >>= next) := by
  change Agree gone tree.here (next tree tree) (next (tree.without gone) (tree.without gone))
  rw [hsame]
  exact hnext

/-! ### Directories and files -/

theorem ignores_ensureDirectory (hclear : Clear gone tree.here path) :
    Ignores gone tree (ensureDirectory path) := by
  unfold Ignores ensureDirectory
  rw [Action.get_bind, Action.get_bind, vacancy_without hclear, isDirectory_without hclear]
  cases hvacancy : tree.vacancy path with
  | ok location =>
    simp only [put_without (notMem_of_locate hclear (vacancy_eq_ok_iff.mp hvacancy).1)]
    exact .ok rfl
  | error cause =>
    cases tree.isDirectory path with
    | true => exact .ok rfl
    | false => exact .error rfl

theorem ignores_ensureDirectoriesTo (hclear : Clear gone tree.here path) (count : Nat) :
    Ignores gone tree (ensureDirectoriesTo path count) := by
  induction count with
  | zero => exact ignores_ensureDirectory (hclear.lead 0)
  | succ count ih =>
    unfold ensureDirectoriesTo
    simp only
    split
    case isTrue => exact ignores_throw gone tree _
    case isFalse =>
      have hlead : Clear gone tree.here (path.lead (count + 1)) := hclear.lead (count + 1)
      refine ignores_get_bind (by rw [← Path.lead, vacancy_without hlead]) ?_
      split
      · refine ih.bind fun _ between _ hhere => ?_
        exact ignores_ensureDirectory (hhere ▸ hlead)
      · exact ignores_ensureDirectory hlead

theorem ignores_ensureDirectories (hclear : Clear gone tree.here path) :
    Ignores gone tree (ensureDirectories path) :=
  ignores_ensureDirectoriesTo hclear _

theorem ignores_fileLocation (hclear : Clear gone tree.here path) :
    Ignores gone tree (fileLocation path) := by
  unfold fileLocation
  simp only
  split
  case isTrue => exact ignores_throw gone tree _
  case isFalse =>
    refine ignores_get_bind ?_ ?_
    · rw [locate_without hclear]
      cases hlocate : tree.locate path with
      | error cause => rfl
      | ok location => simp only [node?_without_of_locate hclear hlocate]
    · cases tree.locate path with
      | error cause => exact ignores_throw gone tree _
      | ok location =>
        simp only
        split
        · exact ignores_throw gone tree _
        · exact ignores_pure gone tree location

theorem ignores_writeDirectly (hclear : Clear gone tree.here path) (bytes : List UInt8) :
    Ignores gone tree (writeDirectly path bytes) := by
  refine (ignores_fileLocation hclear).bind fun location between hlocation _ => ?_
  exact ignores_put (notMem_of_locate hclear (fileLocation_eq_ok hlocation).2.1) _

theorem ignores_createIn {directory : Location} {name : String}
    (hplace : directory ++ [name] ∉ gone) : Ignores gone tree (createIn directory name) := by
  unfold createIn
  simp only
  split
  case isTrue => exact ignores_throw gone tree _
  case isFalse =>
    split
    case isTrue => exact ignores_throw gone tree _
    case isFalse =>
      refine ignores_get_bind (by rw [node?_without_of_notMem hplace]) ?_
      split
      case isTrue => exact ignores_throw gone tree _
      case isFalse =>
        exact (ignores_put hplace _).bind fun _ between _ _ => ignores_pure gone between _

theorem ignores_moveTo (hclear : Clear gone tree.here path) (source : Location)
    (bytes : List UInt8) : Ignores gone tree (moveTo source bytes path) := by
  unfold Ignores moveTo
  rw [Action.get_bind, Action.get_bind, moveFault?_without hclear, locate_without hclear]
  cases hfault : tree.moveFault? path with
  | some cause => exact .error rfl
  | none =>
    cases hlocate : tree.locate path with
    | error cause => exact .error rfl
    | ok location =>
      simp only [remove_without, put_without (notMem_of_locate hclear hlocate)]
      exact .ok rfl

/-- A place that a write to a path looks at or changes. -/
def Touches (here : Location) (stamp : String) (path : Path) (location : Location) : Prop :=
  OnWay here path location ∨
    location = path.parent.place here ++ [temporaryName stamp path.name]

/-- The places are out of the way of a write. -/
def Untouched (gone : List Location) (here : Location) (stamp : String) (path : Path) : Prop :=
  ∀ location ∈ gone, ¬Touches here stamp path location

theorem Untouched.clear {here : Location} {stamp : String}
    (huntouched : Untouched gone here stamp path) : Clear gone here path :=
  fun location hlocation hway => huntouched location hlocation (.inl hway)

theorem ignores_writeAtomically {stamp : String} (huntouched : Untouched gone tree.here stamp path)
    (bytes : List UInt8) : Ignores gone tree (writeAtomically stamp path bytes) := by
  have hclear := huntouched.clear
  unfold writeAtomically
  refine ignores_get_bind (by rw [status_without hclear.parent]) ?_
  cases hstatus : tree.status path.parent with
  | error cause => exact ignores_throw gone tree _
  | ok found =>
    obtain ⟨directory, node⟩ := found
    have hdirectory : directory = path.parent.place tree.here :=
      eq_place_of_locate (status_eq_ok_iff.mp hstatus).1
    have hplace : directory ++ [temporaryName stamp path.name] ∉ gone := by
      rw [hdirectory]
      exact fun hmem => huntouched _ hmem (.inr rfl)
    refine (ignores_createIn hplace).bind fun temporary between hcreate hhere => ?_
    obtain ⟨rfl, -, -, -⟩ := createIn_eq_ok hcreate
    refine (ignores_put hplace _).bind fun _ put _ hput => ?_
    have hclear' : Clear gone put.here path := by rwa [hput, hhere]
    refine (ignores_moveTo hclear' _ bytes).tryCatch fun fault left _ _ => ?_
    exact (ignores_remove _).bind fun _ removed _ _ => ignores_throw gone removed _

end RamlSchema.Files
