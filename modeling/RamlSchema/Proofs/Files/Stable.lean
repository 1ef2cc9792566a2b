import RamlSchema.Proofs.Files.Outcomes

/-!
# What no single change takes away

Every operation changes a tree by putting nodes in places and by removing them, one at a time. So a
property that survives these survives every operation, whether it succeeds or fails. One such
property is that no two entries stand for one place.
-/

namespace RamlSchema.Files

open FileTree

variable {ε α β : Type} {P : FileTree → Prop} {path : Path}

/-- Neither putting nor removing a node takes the property away. -/
structure Stable (P : FileTree → Prop) : Prop where
  put : ∀ tree location node, P tree → P (tree.put location node)
  remove : ∀ tree location, P tree → P (tree.remove location)

/-- The action leaves a tree with the property if it starts from one. -/
def Action.Keeps (P : FileTree → Prop) (action : Action ε α) : Prop :=
  ∀ tree, P tree → P (action.after tree)

namespace Action

theorem keeps_pure (a : α) : Keeps P (pure a : Action ε α) := fun _ => id

theorem keeps_throw (e : ε) : Keeps P (throw e : Action ε α) := fun _ => id

theorem keeps_modify {f : FileTree → FileTree} (hf : ∀ tree, P tree → P (f tree)) :
    Keeps P (modify f : Action ε PUnit) := hf

theorem keeps_get_bind {next : FileTree → Action ε β}
    (hnext : ∀ tree, P tree → P ((next tree).after tree)) : Keeps P (get >>= next) := hnext

theorem Keeps.bind {action : Action ε α} {next : α → Action ε β} (haction : Keeps P action)
    (hnext : ∀ a, Keeps P (next a)) : Keeps P (action >>= next) :=
  fun tree htree => after_bind (R := fun tree tree' => P tree → P tree')
    (fun hfirst hsecond => hsecond ∘ hfirst) (haction tree) (fun a between _ _ => hnext a between)
    htree

theorem Keeps.tryCatch {action : Action ε α} {handle : ε → Action ε α} (haction : Keeps P action)
    (hhandle : ∀ e, Keeps P (handle e)) : Keeps P (MonadExcept.tryCatch action handle) := by
  intro tree htree
  have hleft := haction tree htree
  change P (after (EStateM.tryCatch action handle) tree)
  cases hrun : action tree with
  | ok a tree' =>
    have hsame : EStateM.tryCatch action handle tree = .ok a tree' := by
      rw [EStateM.tryCatch, hrun]
    rw [after_of_eq_ok hsame]
    rwa [after_of_eq_ok hrun] at hleft
  | error e tree' =>
    have hhandled : EStateM.tryCatch action handle tree = handle e tree' := by
      rw [EStateM.tryCatch, hrun]
      rfl
    rw [after_of_eq_error hrun] at hleft
    unfold after
    rw [hhandled]
    exact hhandle e tree' hleft

end Action

namespace Stable

open Files.Action (Keeps keeps_get_bind keeps_modify keeps_pure keeps_throw)

variable (h : Stable P)
include h

theorem keeps_ensureDirectory (path : Path) : Keeps P (ensureDirectory path) := by
  intro tree htree
  rcases after_ensureDirectory tree path with hsame | ⟨location, -, -, hput⟩
  · rwa [hsame]
  · rw [hput]
    exact h.put tree location .directory htree

theorem keeps_ensureDirectoriesTo (path : Path) (count : Nat) :
    Keeps P (ensureDirectoriesTo path count) := by
  induction count with
  | zero => exact h.keeps_ensureDirectory _
  | succ count ih =>
    unfold ensureDirectoriesTo
    simp only
    split
    case isTrue => exact keeps_throw _
    case isFalse =>
      refine keeps_get_bind fun tree htree => ?_
      split
      · exact ih.bind (fun _ => h.keeps_ensureDirectory _) tree htree
      · exact h.keeps_ensureDirectory _ tree htree

theorem keeps_ensureDirectories (path : Path) : Keeps P (ensureDirectories path) :=
  h.keeps_ensureDirectoriesTo path _

theorem keeps_writeDirectly (path : Path) (bytes : List UInt8) :
    Keeps P (writeDirectly path bytes) := by
  have hlocation : Keeps P (fileLocation path) := by
    unfold fileLocation
    split
    case isTrue => exact keeps_throw _
    case isFalse =>
      refine keeps_get_bind fun tree htree => ?_
      split
      · exact htree
      · split <;> exact htree
  exact hlocation.bind fun location => keeps_modify fun tree => h.put tree location _

theorem keeps_createIn (directory : Location) (name : String) :
    Keeps P (createIn directory name) := by
  unfold createIn
  simp only
  split
  case isTrue => exact keeps_throw _
  case isFalse =>
    split
    case isTrue => exact keeps_throw _
    case isFalse =>
      refine keeps_get_bind fun tree htree => ?_
      split
      case isTrue => exact htree
      case isFalse => exact h.put tree _ _ htree

theorem keeps_moveTo (source : Location) (bytes : List UInt8) (path : Path) :
    Keeps P (moveTo source bytes path) := by
  refine keeps_get_bind fun tree htree => ?_
  split
  · exact h.put _ _ _ (h.remove tree source htree)
  · exact htree
  · exact htree

theorem keeps_writeAtomically (stamp : String) (path : Path) (bytes : List UInt8) :
    Keeps P (writeAtomically stamp path bytes) := by
  refine keeps_get_bind fun tree htree => ?_
  split
  · exact htree
  · refine (h.keeps_createIn _ _).bind (fun temporary => ?_) tree htree
    refine (keeps_modify fun tree => h.put tree temporary _).bind fun _ => ?_
    refine (h.keeps_moveTo temporary bytes path).tryCatch fun fault => ?_
    exact (keeps_modify fun tree => h.remove tree temporary).bind fun _ => keeps_throw fault

end Stable

/-! ### Entries below a place -/

def Location.isDeeper (place location : Location) : Bool :=
  place.isPrefixOf location && location != place

theorem Location.isDeeper_append (place : Location) {names : List String} (hnames : names ≠ []) :
    Location.isDeeper place (place ++ names) = true := by
  simp [isDeeper, hnames]

/-- No two entries stand for one place below another one. -/
def FileTree.DistinctBelow (place : Location) (tree : FileTree) : Prop :=
  Entries.NodupKeys (tree.nodes.filter fun entry => place.isDeeper entry.1)

theorem stable_distinctBelow (place : Location) : Stable (DistinctBelow place) where
  put := by
    intro tree location node htree
    have hfilter := Entries.filter_put tree.nodes place.isDeeper location node
    rw [DistinctBelow, FileTree.put, hfilter]
    split
    case isTrue => exact Entries.NodupKeys.put htree location node
    case isFalse => exact htree
  remove := by
    intro tree location htree
    have hsublist : ((tree.remove location).nodes.filter fun entry =>
        place.isDeeper entry.1).Sublist (tree.nodes.filter fun entry => place.isDeeper entry.1) :=
      List.Sublist.filter _ List.filter_sublist
    exact List.Nodup.sublist (hsublist.map Prod.fst) htree

/-- An entry is what there is at its place. -/
theorem FileTree.DistinctBelow.node?_eq_some {place : Location} {tree : FileTree}
    (htree : tree.DistinctBelow place) {names : List String} (hnames : names ≠ []) {node : Node}
    (hentry : (place ++ names, node) ∈ tree.nodes) : tree.node? (place ++ names) = some node := by
  have hdeeper := Location.isDeeper_append place hnames
  have hget : Entries.get? (tree.nodes.filter fun entry => place.isDeeper entry.1)
      (place ++ names) = some node :=
    (Entries.NodupKeys.get?_eq_some_iff htree).mpr (List.mem_filter.mpr ⟨hentry, hdeeper⟩)
  have hempty : (place ++ names).isEmpty = false := by simp [hnames]
  rw [Entries.get?_filter tree.nodes place.isDeeper, hdeeper, if_pos rfl] at hget
  rw [node?, hempty, if_neg Bool.false_ne_true, hget]

def FileTree.Vacant (tree : FileTree) (place : Location) : Prop :=
  ∀ names, names ≠ [] → tree.node? (place ++ names) = none

theorem FileTree.Vacant.distinctBelow {place : Location} {tree : FileTree}
    (htree : tree.Vacant place) : tree.DistinctBelow place := by
  have hnil : (tree.nodes.filter fun entry => place.isDeeper entry.1) = [] := by
    rw [List.filter_eq_nil_iff]
    rintro ⟨location, node⟩ hentry hdeeper
    rw [Location.isDeeper, Bool.and_eq_true, List.isPrefixOf_iff_prefix, bne_iff_ne] at hdeeper
    obtain ⟨⟨names, rfl⟩, hne⟩ := hdeeper
    have hnames : names ≠ [] := by simpa using hne
    have hnone := htree names hnames
    have hempty : (place ++ names).isEmpty = false := by simp [hnames]
    rw [node?, hempty, if_neg Bool.false_ne_true, Entries.get?_eq_none_iff] at hnone
    exact hnone (List.mem_map.mpr ⟨_, hentry, rfl⟩)
  rw [DistinctBelow, hnil]
  exact Entries.nodupKeys_nil

end RamlSchema.Files
