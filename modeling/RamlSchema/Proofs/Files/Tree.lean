import Mathlib.Data.List.Induction
import RamlSchema.Proofs.Entries
import RamlSchema.Proofs.Success

/-!
# Nodes and locations

In a tree that is well formed every node lies in a directory, so nothing lies below a file or below
a place where there is nothing. A path leads to the same location in every tree that has the same
directories, because walking looks at nothing else.
-/

namespace RamlSchema.Files

namespace FileTree

/-! ### Nodes after a change -/

theorem node?_put (tree : FileTree) {location : Location} (hne : location ≠ []) (node : Node)
    (other : Location) :
    (tree.put location node).node? other = if other = location then some node
      else tree.node? other := by
  unfold node? put
  by_cases hother : other = []
  · subst hother
    rw [if_neg (Ne.symm hne)]
    rfl
  · have hempty : other.isEmpty = false := by simpa using hother
    rw [Entries.get?_put]
    simp only [hempty, Bool.false_eq_true, if_false, eq_comm]

theorem node?_remove (tree : FileTree) {location : Location} (hne : location ≠ [])
    (other : Location) :
    (tree.remove location).node? other = if location <+: other then none
      else tree.node? other := by
  unfold node? remove
  by_cases hother : other = []
  · subst hother
    have hout : ¬location <+: [] := fun h => hne (List.prefix_nil.mp h)
    rw [if_neg hout]
    rfl
  · have hempty : other.isEmpty = false := by simpa using hother
    have hfilter := Entries.get?_filter tree.nodes (fun l => !location.isPrefixOf l) other
    by_cases habove : location <+: other
    · have hin : location.isPrefixOf other = true := List.isPrefixOf_iff_prefix.mpr habove
      simp only [hempty, Bool.false_eq_true, if_false, hfilter, hin, Bool.not_true, if_pos habove]
    · have hout : location.isPrefixOf other = false :=
        Bool.eq_false_iff.mpr fun h => habove (List.isPrefixOf_iff_prefix.mp h)
      simp only [hempty, Bool.false_eq_true, if_false, hfilter, hout, Bool.not_false, if_true,
        if_neg habove]

/-! ### Trees as there are -/

/-- Every node lies in a directory, and the working directory exists. -/
structure WellFormed (tree : FileTree) : Prop where
  here : tree.node? tree.here = some .directory
  parent : ∀ location node, tree.node? location = some node →
    tree.node? location.dropLast = some .directory

theorem wellFormed_of_forall {tree : FileTree} (hhere : tree.node? tree.here = some .directory)
    (hnodes : ∀ entry ∈ tree.nodes, tree.node? entry.1.dropLast = some .directory) :
    tree.WellFormed where
  here := hhere
  parent := by
    intro location node hnode
    unfold node? at hnode
    split at hnode
    case isTrue hnil =>
      obtain rfl := List.isEmpty_iff.mp hnil
      rfl
    case isFalse => exact hnodes _ (Entries.mem_of_get?_eq_some hnode)

theorem WellFormed.directory_of_prefix {tree : FileTree} (htree : tree.WellFormed)
    {location below : Location} {node : Node} (hnode : tree.node? below = some node)
    (habove : location <+: below) (hne : location ≠ below) :
    tree.node? location = some .directory := by
  obtain ⟨names, rfl⟩ := habove
  induction names using List.reverseRecOn generalizing node with
  | nil => exact absurd (List.append_nil location).symm hne
  | append_singleton names name ih =>
    have hparent : tree.node? (location ++ names) = some .directory := by
      have hdrop := htree.parent _ _ hnode
      rwa [← List.append_assoc, List.dropLast_concat] at hdrop
    by_cases hnames : names = []
    · subst hnames
      rwa [List.append_nil] at hparent
    · exact ih hparent fun heq => hnames (by simpa using heq)

theorem WellFormed.node?_eq_none_below {tree : FileTree} (htree : tree.WellFormed)
    {location below : Location} (hlocation : tree.node? location ≠ some .directory)
    (habove : location <+: below) (hne : location ≠ below) : tree.node? below = none := by
  rw [Option.eq_none_iff_forall_ne_some]
  intro node hnode
  exact hlocation (htree.directory_of_prefix hnode habove hne)

/-! ### Walking -/

/-- The location that a path of any length leads to. -/
def walk (tree : FileTree) (path : Path) : Except Cause Location :=
  path.parts.foldlM tree.walkPart (if path.isAbsolute then [] else tree.here)

theorem locate_eq_ok_iff {tree : FileTree} {path : Path} {location : Location} :
    tree.locate path = .ok location ↔ path.isTooLong = false ∧ tree.walk path = .ok location := by
  unfold locate walk
  cases path.isTooLong <;> simp

theorem walkPart_eq_ok_iff {tree : FileTree} {location location' : Location} {part : String} :
    tree.walkPart location part = .ok location' ↔
      tree.node? location = some .directory ∧
        ((part = ".." ∧ location' = location.dropLast) ∨
          (part ≠ ".." ∧ Text.Utf8.size part ≤ nameLimit ∧ location' = location ++ [part])) := by
  unfold walkPart
  cases tree.node? location with
  | none => simp
  | some node =>
    cases node with
    | file bytes => simp
    | directory =>
      by_cases hup : part = ".."
      · simp [hup, eq_comm]
      · by_cases hlong : nameLimit < Text.Utf8.size part
        · simp [hup, hlong, Nat.not_le_of_lt hlong]
        · simp [hup, hlong, eq_comm, Nat.le_of_not_lt hlong]

/-- What is no directory lies in one, under the last part of the path to it. -/
theorem WellFormed.exists_last_of_locate {tree : FileTree} (htree : tree.WellFormed) {path : Path}
    {location : Location} (hlocate : tree.locate path = .ok location)
    (hlocation : tree.node? location ≠ some .directory) :
    ∃ directory name, location = directory ++ [name] ∧ tree.node? directory = some .directory ∧
      path.parts.getLast? = some name ∧ name ≠ ".." := by
  have hwalk := (locate_eq_ok_iff.mp hlocate).2
  rw [walk] at hwalk
  rcases List.eq_nil_or_concat' path.parts with hparts | ⟨parts, name, hparts⟩
  · rw [hparts] at hwalk
    obtain rfl := Except.ok.inj hwalk
    refine absurd ?_ hlocation
    split
    · rfl
    · exact htree.here
  · rw [hparts, List.foldlM_append] at hwalk
    obtain ⟨directory, -, hwalk⟩ := bind_eq_ok_iff.mp hwalk
    rw [List.foldlM_cons] at hwalk
    obtain ⟨next, hpart, hwalk⟩ := bind_eq_ok_iff.mp hwalk
    obtain rfl := Except.ok.inj hwalk
    obtain ⟨hdirectory, ⟨-, rfl⟩ | ⟨hup, -, rfl⟩⟩ := walkPart_eq_ok_iff.mp hpart
    · exact absurd (htree.parent _ _ hdirectory) hlocation
    · exact ⟨directory, name, rfl, hdirectory, by rw [hparts, List.getLast?_concat], hup⟩

theorem WellFormed.exists_of_locate {tree : FileTree} (htree : tree.WellFormed) {path : Path}
    {location : Location} (hlocate : tree.locate path = .ok location)
    (hlocation : tree.node? location ≠ some .directory) :
    ∃ directory name, location = directory ++ [name] ∧
      tree.node? directory = some .directory := by
  obtain ⟨directory, name, heq, hdirectory, -⟩ := htree.exists_last_of_locate hlocate hlocation
  exact ⟨directory, name, heq, hdirectory⟩

/-- Plain names lead on below the place that they start from. -/
theorem eq_append_of_foldlM_walkPart {tree : FileTree} {names : List String} (hnames : ".." ∉ names)
    {base location : Location} (hwalk : names.foldlM tree.walkPart base = .ok location) :
    location = base ++ names := by
  induction names generalizing base with
  | nil => rw [List.append_nil, ← Except.ok.inj hwalk]
  | cons name names ih =>
    rw [List.mem_cons, not_or] at hnames
    rw [List.foldlM_cons] at hwalk
    obtain ⟨next, hpart, hwalk⟩ := bind_eq_ok_iff.mp hwalk
    obtain ⟨-, ⟨rfl, -⟩ | ⟨-, -, rfl⟩⟩ := walkPart_eq_ok_iff.mp hpart
    · exact absurd rfl hnames.1
    · rw [ih hnames.2 hwalk, List.append_assoc, List.singleton_append]

theorem exists_walk_of_locate_within {tree : FileTree} {path : Path} {names : List String}
    (hnames : ".." ∉ names) {location : Location}
    (hlocate : tree.locate (path.within names) = .ok location) :
    ∃ base, tree.walk path = .ok base ∧ location = base ++ names := by
  have hwalk := (locate_eq_ok_iff.mp hlocate).2
  rw [walk, Path.within, List.foldlM_append] at hwalk
  obtain ⟨base, hbase, hwalk⟩ := bind_eq_ok_iff.mp hwalk
  exact ⟨base, hbase, eq_append_of_foldlM_walkPart hnames hwalk⟩

theorem status_eq_ok_iff {tree : FileTree} {path : Path} {location : Location} {node : Node} :
    tree.status path = .ok (location, node) ↔
      tree.locate path = .ok location ∧ tree.node? location = some node := by
  rw [status, bind_eq_ok_iff]
  constructor
  · rintro ⟨found, hlocate, hstatus⟩
    cases hnode : tree.node? found with
    | none =>
      rw [hnode] at hstatus
      cases hstatus
    | some other =>
      rw [hnode] at hstatus
      obtain ⟨rfl, rfl⟩ := Prod.mk.inj (Except.ok.inj hstatus)
      exact ⟨hlocate, hnode⟩
  · rintro ⟨hlocate, hnode⟩
    exact ⟨location, hlocate, by rw [hnode]⟩

theorem readBytes_eq_ok_iff {tree : FileTree} {path : Path} {bytes : List UInt8} :
    tree.readBytes path = .ok bytes ↔ path.hasNull = false ∧
      ∃ location, tree.locate path = .ok location ∧
        tree.node? location = some (.file bytes) := by
  simp only [← status_eq_ok_iff]
  unfold readBytes
  cases path.hasNull with
  | true => simp
  | false =>
    cases tree.status path with
    | error cause => simp
    | ok found =>
      obtain ⟨location, node⟩ := found
      cases node <;> simp

theorem look_eq_some_iff {tree : FileTree} {path : Path} {node : Node} :
    tree.look path = .ok (some node) ↔ path.hasNull = false ∧
      ∃ location, tree.locate path = .ok location ∧ tree.node? location = some node := by
  simp only [← status_eq_ok_iff]
  unfold look
  cases path.hasNull with
  | true => simp
  | false =>
    cases tree.status path with
    | error cause => cases cause <;> simp
    | ok found =>
      obtain ⟨location, found⟩ := found
      simp

theorem looksLikeFile_eq_true_iff {tree : FileTree} {path : Path} :
    tree.looksLikeFile path = .ok true ↔ ∃ bytes, tree.readBytes path = .ok bytes := by
  have hlook : tree.looksLikeFile path = .ok true ↔
      ∃ bytes, tree.look path = .ok (some (.file bytes)) := by
    unfold looksLikeFile
    cases tree.look path with
    | error fault => simp [Except.map]
    | ok found => match found with
      | none | some .directory | some (.file _) => simp [Except.map]
  rw [hlook]
  exact exists_congr fun bytes => look_eq_some_iff.trans readBytes_eq_ok_iff.symm

theorem listDirectory_eq_ok_iff {tree : FileTree} {path : Path} {names : List String} :
    tree.listDirectory path = .ok names ↔ path.hasNull = false ∧
      ∃ location, tree.locate path = .ok location ∧ tree.node? location = some .directory ∧
        names = tree.names location := by
  simp only [← and_assoc, ← status_eq_ok_iff]
  unfold listDirectory
  cases path.hasNull with
  | true => simp
  | false =>
    cases tree.status path with
    | error cause => simp
    | ok found =>
      obtain ⟨location, node⟩ := found
      cases node <;> simp [eq_comm]

/-! ### Trees that keep directories -/

/-- The directories of one tree are directories of another with the same working directory. -/
structure KeptIn (tree tree' : FileTree) : Prop where
  here_eq : tree'.here = tree.here
  directory : ∀ location, tree.node? location = some .directory →
    tree'.node? location = some .directory

theorem KeptIn.refl (tree : FileTree) : tree.KeptIn tree := ⟨rfl, fun _ h => h⟩

theorem KeptIn.trans {tree tree' tree'' : FileTree} (h : tree.KeptIn tree')
    (h' : tree'.KeptIn tree'') : tree.KeptIn tree'' :=
  ⟨h'.here_eq.trans h.here_eq, fun location hl => h'.directory location (h.directory location hl)⟩

theorem KeptIn.walkPart {tree tree' : FileTree} (h : tree.KeptIn tree') {location next : Location}
    {part : String} (hpart : tree.walkPart location part = .ok next) :
    tree'.walkPart location part = .ok next := by
  rw [walkPart_eq_ok_iff] at hpart ⊢
  exact hpart.imp_left (h.directory location)

theorem KeptIn.foldlM_walkPart {tree tree' : FileTree} (h : tree.KeptIn tree')
    {parts : List String} {start location : Location}
    (hwalk : parts.foldlM tree.walkPart start = .ok location) :
    parts.foldlM tree'.walkPart start = .ok location := by
  induction parts generalizing start with
  | nil => exact hwalk
  | cons part parts ih =>
    rw [List.foldlM_cons] at hwalk ⊢
    obtain ⟨next, hpart, hwalk⟩ := bind_eq_ok_iff.mp hwalk
    exact bind_eq_ok_iff.mpr ⟨next, h.walkPart hpart, ih hwalk⟩

/-- A path that leads somewhere leads there for as long as the directories stay. -/
theorem KeptIn.locate {tree tree' : FileTree} (h : tree.KeptIn tree') {path : Path}
    {location : Location} (hlocate : tree.locate path = .ok location) :
    tree'.locate path = .ok location := by
  rw [locate_eq_ok_iff] at hlocate ⊢
  refine hlocate.imp_right fun hwalk => ?_
  rw [walk, h.here_eq]
  exact h.foldlM_walkPart hwalk

end FileTree

end RamlSchema.Files
