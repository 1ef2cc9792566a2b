import RamlSchema.Proofs.Files.Tree

/-!
# What changes leave behind

Creating directories puts directories where nothing was, and writing a file puts a file in the place
that its path leads to. Both keep every directory, so paths lead where they led before. A file that
is written through a temporary one differs in nothing from one that is written in place.
-/

namespace RamlSchema.Files

open FileTree

variable {tree tree' : FileTree} {path : Path}

/-! ### New directories -/

/-- The second tree is the first with directories where nothing was. -/
structure FileTree.MadeFrom (tree' tree : FileTree) : Prop where
  here_eq : tree'.here = tree.here
  node : ∀ location, tree'.node? location = tree.node? location ∨
    tree.node? location = none ∧ tree'.node? location = some .directory

theorem FileTree.MadeFrom.refl (tree : FileTree) : tree.MadeFrom tree :=
  ⟨rfl, fun _ => .inl rfl⟩

/-- A node that stays or becomes a directory, and does so again, has done so over both steps. -/
theorem sameOrMade_trans {node node' node'' : Option Node}
    (h : node' = node ∨ node = none ∧ node' = some .directory)
    (h' : node'' = node' ∨ node' = none ∧ node'' = some .directory) :
    node'' = node ∨ node = none ∧ node'' = some .directory := by
  rcases h' with rfl | ⟨hnone, hnew⟩
  · exact h
  · rcases h with rfl | ⟨-, hnew'⟩
    · exact .inr ⟨hnone, hnew⟩
    · rw [hnone] at hnew'
      cases hnew'

theorem FileTree.MadeFrom.trans {tree'' : FileTree} (h' : tree''.MadeFrom tree')
    (h : tree'.MadeFrom tree) : tree''.MadeFrom tree where
  here_eq := h'.here_eq.trans h.here_eq
  node := fun location => sameOrMade_trans (h.node location) (h'.node location)

theorem FileTree.MadeFrom.keptIn (h : tree'.MadeFrom tree) : tree.KeptIn tree' where
  here_eq := h.here_eq
  directory := by
    intro location hlocation
    rcases h.node location with hsame | ⟨hnone, -⟩
    · exact hsame.trans hlocation
    · rw [hnone] at hlocation
      cases hlocation

theorem FileTree.WellFormed.put (htree : tree.WellFormed) {directory : Location} {name : String}
    (hdirectory : tree.node? directory = some .directory)
    (hplace : tree.node? (directory ++ [name]) ≠ some .directory) (node : Node) :
    (tree.put (directory ++ [name]) node).WellFormed := by
  have hne : directory ++ [name] ≠ [] := by simp
  have hkept : ∀ location, tree.node? location = some .directory →
      (tree.put (directory ++ [name]) node).node? location = some .directory := by
    intro location hlocation
    rw [node?_put tree hne, if_neg, hlocation]
    rintro rfl
    exact hplace hlocation
  refine ⟨hkept _ htree.here, ?_⟩
  intro location found hfound
  rw [node?_put tree hne] at hfound
  split at hfound
  case isTrue hlocation =>
    rw [hlocation, List.dropLast_concat]
    exact hkept _ hdirectory
  case isFalse => exact hkept _ (htree.parent _ _ hfound)

theorem vacancy_eq_ok_iff {location : Location} :
    tree.vacancy path = .ok location ↔
      tree.locate path = .ok location ∧ tree.node? location = none := by
  unfold FileTree.vacancy
  cases hlocate : tree.locate path with
  | error cause => simp
  | ok found =>
    simp only [Except.ok.injEq]
    cases hnode : tree.node? found with
    | some node =>
      refine ⟨nofun, ?_⟩
      rintro ⟨rfl, hnone⟩
      rw [hnone] at hnode
      cases hnode
    | none =>
      constructor
      · intro heq
        obtain rfl : found = location := Except.ok.inj heq
        exact ⟨rfl, hnode⟩
      · rintro ⟨rfl, -⟩
        rfl

theorem isDirectory_iff :
    tree.isDirectory path = true ↔
      ∃ location, tree.locate path = .ok location ∧ tree.node? location = some .directory := by
  simp only [← status_eq_ok_iff]
  unfold isDirectory
  cases tree.status path with
  | error cause => simp
  | ok found =>
    obtain ⟨location, node⟩ := found
    cases node <;> simp

theorem FileTree.KeptIn.isDirectory (h : tree.KeptIn tree')
    (hdirectory : tree.isDirectory path = true) : tree'.isDirectory path = true := by
  obtain ⟨location, hlocate, hlocation⟩ := isDirectory_iff.mp hdirectory
  exact isDirectory_iff.mpr ⟨location, h.locate hlocate, h.directory location hlocation⟩

/-- What a successful step that creates directories has done. -/
structure Ensured (tree tree' : FileTree) (path : Path) : Prop where
  made : tree'.MadeFrom tree
  wellFormed : tree'.WellFormed
  directory : tree'.isDirectory path = true

theorem ensureDirectory_eq_ok (htree : tree.WellFormed)
    (hrun : ensureDirectory path tree = .ok () tree') : Ensured tree tree' path := by
  unfold ensureDirectory at hrun
  rw [Action.get_bind] at hrun
  cases hvacancy : tree.vacancy path with
  | ok location =>
    rw [hvacancy] at hrun
    obtain rfl := Action.set_eq_ok_iff.mp hrun
    obtain ⟨hlocate, hnone⟩ := vacancy_eq_ok_iff.mp hvacancy
    obtain ⟨directory, name, rfl, hdirectory⟩ :=
      htree.exists_of_locate hlocate (by rw [hnone]; nofun)
    have hne : directory ++ [name] ≠ [] := by simp
    have hmade : (tree.put (directory ++ [name]) .directory).MadeFrom tree := by
      refine ⟨rfl, fun other => ?_⟩
      rw [node?_put tree hne]
      split
      case isTrue hother => exact .inr ⟨hother ▸ hnone, rfl⟩
      case isFalse => exact .inl rfl
    refine ⟨hmade, htree.put hdirectory (by rw [hnone]; nofun) _, isDirectory_iff.mpr ?_⟩
    exact ⟨_, hmade.keptIn.locate hlocate, by rw [node?_put tree hne, if_pos rfl]⟩
  | error cause =>
    rw [hvacancy] at hrun
    by_cases hdirectory : tree.isDirectory path = true
    · simp only [hdirectory, if_true] at hrun
      obtain ⟨-, rfl⟩ := Action.pure_eq_ok_iff.mp hrun
      exact ⟨.refl tree, htree, hdirectory⟩
    · simp only [hdirectory] at hrun
      exact absurd hrun Action.fail_ne_ok

theorem Ensured.of_made {between : FileTree} (hmade : between.MadeFrom tree)
    (h : Ensured between tree' path) : Ensured tree tree' path :=
  ⟨h.made.trans hmade, h.wellFormed, h.directory⟩

theorem ensureDirectoriesTo_eq_ok (htree : tree.WellFormed) {count : Nat}
    (hrun : ensureDirectoriesTo path count tree = .ok () tree') :
    Ensured tree tree' { path with parts := path.parts.take count } ∧
      (count ≠ 0 → path.hasNull = false) := by
  induction count generalizing tree tree' with
  | zero => exact ⟨ensureDirectory_eq_ok htree hrun, fun h => absurd rfl h⟩
  | succ count ih =>
    unfold ensureDirectoriesTo at hrun
    simp only at hrun
    split at hrun
    case isTrue => exact absurd hrun Action.throw_bind_ne_ok
    case isFalse hnull =>
      refine ⟨?_, fun _ => by simpa using hnull⟩
      rw [Action.get_bind] at hrun
      by_cases hmissing : tree.vacancy { path with parts := path.parts.take (count + 1) } =
          .error .missing
      · rw [hmissing] at hrun
        obtain ⟨_, between, houter, hinner⟩ := Action.bind_eq_ok_iff.mp hrun
        obtain ⟨hbetween, -⟩ := ih htree houter
        exact (ensureDirectory_eq_ok hbetween.wellFormed hinner).of_made hbetween.made
      · refine ensureDirectory_eq_ok htree ?_
        rcases hvacancy : tree.vacancy _ with cause | location
        · rw [hvacancy] at hrun hmissing
          cases cause <;> first | exact hrun | exact absurd rfl hmissing
        · rwa [hvacancy] at hrun

theorem ensureDirectories_eq_ok (htree : tree.WellFormed)
    (hrun : ensureDirectories path tree = .ok () tree') :
    Ensured tree tree' path ∧ (path.parts ≠ [] → path.hasNull = false) := by
  obtain ⟨hensured, hnull⟩ := ensureDirectoriesTo_eq_ok htree hrun
  rw [List.take_length] at hensured
  exact ⟨hensured, fun hparts => hnull (by simpa using hparts)⟩

/-! ### Written files -/

/-- What a successful step that writes a file has done: the file is in the place that its path leads
to, and all else is as before, but for new directories. -/
structure Wrote (tree tree' : FileTree) (path : Path) (bytes : List UInt8) (location : Location) :
    Prop where
  here_eq : tree'.here = tree.here
  wellFormed : tree'.WellFormed
  locate_eq : tree'.locate path = .ok location
  replaced : tree.node? location ≠ some .directory
  node_eq : tree'.node? location = some (.file bytes)
  others : ∀ other, other ≠ location → tree'.node? other = tree.node? other ∨
    tree.node? other = none ∧ tree'.node? other = some .directory

theorem Wrote.keptIn {bytes : List UInt8} {location : Location}
    (h : Wrote tree tree' path bytes location) : tree.KeptIn tree' where
  here_eq := h.here_eq
  directory := by
    intro other hother
    have hne : other ≠ location := by
      rintro rfl
      exact h.replaced hother
    rcases h.others other hne with hsame | ⟨hnone, -⟩
    · exact hsame.trans hother
    · rw [hnone] at hother
      cases hother

theorem Wrote.of_made {between : FileTree} {bytes : List UInt8} {location : Location}
    (hmade : between.MadeFrom tree) (h : Wrote between tree' path bytes location) :
    Wrote tree tree' path bytes location where
  here_eq := h.here_eq.trans hmade.here_eq
  wellFormed := h.wellFormed
  locate_eq := h.locate_eq
  replaced := fun hdirectory => h.replaced (hmade.keptIn.directory location hdirectory)
  node_eq := h.node_eq
  others := fun other hother => sameOrMade_trans (hmade.node other) (h.others other hother)

/-- A file that is put in a place that a path leads to, and that holds no directory. -/
theorem wrote_put (htree : tree.WellFormed) {location : Location}
    (hlocate : tree.locate path = .ok location)
    (hlocation : tree.node? location ≠ some .directory) (bytes : List UInt8) :
    Wrote tree (tree.put location (.file bytes)) path bytes location := by
  obtain ⟨directory, name, rfl, hdirectory⟩ := htree.exists_of_locate hlocate hlocation
  have hne : directory ++ [name] ≠ [] := by simp
  have hkept : tree.KeptIn (tree.put (directory ++ [name]) (.file bytes)) := by
    refine ⟨rfl, fun other hother => ?_⟩
    rw [node?_put tree hne, if_neg, hother]
    rintro rfl
    exact hlocation hother
  refine ⟨rfl, htree.put hdirectory hlocation _, hkept.locate hlocate, hlocation, ?_, ?_⟩
  · rw [node?_put tree hne, if_pos rfl]
  · intro other hother
    rw [node?_put tree hne, if_neg hother]
    exact .inl rfl

/-- The trees have the same nodes everywhere but in one place. -/
def FileTree.SameBut (location : Location) (tree tree' : FileTree) : Prop :=
  ∀ other, other ≠ location → tree'.node? other = tree.node? other

theorem sameBut_put (tree : FileTree) {location : Location} (hne : location ≠ []) (node : Node) :
    tree.SameBut location (tree.put location node) := by
  intro other hother
  rw [node?_put tree hne, if_neg hother]

theorem FileTree.WellFormed.ne_nil_of_locate (htree : tree.WellFormed) {location : Location}
    (hlocate : tree.locate path = .ok location)
    (hlocation : tree.node? location ≠ some .directory) : location ≠ [] := by
  obtain ⟨directory, name, rfl, -⟩ := htree.exists_of_locate hlocate hlocation
  simp

theorem fileLocation_eq_ok {location : Location}
    (hrun : fileLocation path tree = .ok location tree') :
    path.hasNull = false ∧ tree.locate path = .ok location ∧
      tree.node? location ≠ some .directory ∧ tree = tree' := by
  unfold fileLocation at hrun
  simp only at hrun
  split at hrun
  case isTrue => exact absurd hrun Action.throw_bind_ne_ok
  case isFalse hnull =>
    rw [Action.get_bind] at hrun
    cases hlocate : tree.locate path with
    | error cause =>
      rw [hlocate] at hrun
      exact absurd hrun Action.fail_ne_ok
    | ok found =>
      rw [hlocate] at hrun
      simp only at hrun
      split at hrun
      case isTrue => exact absurd hrun Action.fail_ne_ok
      case isFalse hdirectory =>
        obtain ⟨rfl, rfl⟩ := Action.pure_eq_ok_iff.mp hrun
        exact ⟨by simpa using hnull, rfl, hdirectory, rfl⟩

theorem writeDirectly_eq_ok (htree : tree.WellFormed) {bytes : List UInt8}
    (hrun : writeDirectly path bytes tree = .ok () tree') :
    path.hasNull = false ∧
      ∃ location, Wrote tree tree' path bytes location ∧ tree.SameBut location tree' := by
  obtain ⟨location, between, hlocation, hput⟩ := Action.bind_eq_ok_iff.mp hrun
  obtain ⟨hnull, hlocate, hdirectory, rfl⟩ := fileLocation_eq_ok hlocation
  obtain rfl := Action.modify_eq_ok_iff.mp hput
  exact ⟨hnull, location, wrote_put htree hlocate hdirectory bytes,
    sameBut_put tree (htree.ne_nil_of_locate hlocate hdirectory) _⟩

/-! ### Files written through a temporary one -/

theorem createIn_eq_ok {directory location : Location} {name : String}
    (hrun : createIn directory name tree = .ok location tree') :
    location = directory ++ [name] ∧ tree.node? location = none ∧
      tree' = tree.put location (.file []) ∧ Char.ofNat 0 ∉ name.toList := by
  unfold createIn at hrun
  simp only at hrun
  split at hrun
  case isTrue => exact absurd hrun Action.throw_bind_ne_ok
  case isFalse hnull =>
    split at hrun
    case isTrue => exact absurd hrun Action.throw_bind_ne_ok
    case isFalse =>
      rw [Action.get_bind] at hrun
      split at hrun
      case isTrue => exact absurd hrun Action.throw_bind_ne_ok
      case isFalse hvacant =>
        rw [Action.modify_bind] at hrun
        obtain ⟨rfl, rfl⟩ := Action.pure_eq_ok_iff.mp hrun
        exact ⟨rfl, by simpa using hvacant, rfl, by simpa using hnull⟩

theorem node?_remove_eq (htree : tree.WellFormed) {location : Location} (hne : location ≠ [])
    (hvacant : tree.node? location = none) {between : FileTree}
    (hnode : ∀ other, other ≠ location → between.node? other = tree.node? other)
    (other : Location) : (between.remove location).node? other = tree.node? other := by
  rw [node?_remove between hne]
  split
  case isTrue habove =>
    by_cases heq : location = other
    · rw [← heq, hvacant]
    · exact (htree.node?_eq_none_below (by rw [hvacant]; nofun) habove heq).symm
  case isFalse habove =>
    refine hnode other ?_
    rintro rfl
    exact habove List.prefix_rfl

theorem FileTree.WellFormed.of_node?_eq (htree : tree.WellFormed) (hhere : tree'.here = tree.here)
    (hnode : ∀ location, tree'.node? location = tree.node? location) : tree'.WellFormed where
  here := by rw [hhere, hnode, htree.here]
  parent := by
    intro location node hlocation
    rw [hnode] at hlocation ⊢
    exact htree.parent location node hlocation

theorem locate_of_moveFault?_eq_none (hfault : tree.moveFault? path = none) :
    ∃ location, tree.locate path = .ok location ∧ tree.node? location ≠ some .directory := by
  unfold moveFault? at hfault
  split at hfault
  case isTrue => cases hfault
  case isFalse =>
    split at hfault
    case isTrue => cases hfault
    case isFalse =>
      cases hlocate : tree.locate path with
      | error cause =>
        rw [hlocate] at hfault
        cases hfault
      | ok location =>
        rw [hlocate] at hfault
        exact ⟨location, rfl, by simpa using hfault⟩

theorem moveTo_cases (source : Location) (bytes : List UInt8) (path : Path) (tree : FileTree) :
    (∃ fault, moveTo source bytes path tree = .error fault tree) ∨
      ∃ location, tree.locate path = .ok location ∧ tree.node? location ≠ some .directory ∧
        moveTo source bytes path tree =
          .ok () ((tree.remove source).put location (.file bytes)) := by
  unfold moveTo
  rw [Action.get_bind]
  cases hfault : tree.moveFault? path with
  | some cause => exact .inl ⟨_, rfl⟩
  | none =>
    obtain ⟨location, hlocate, hdirectory⟩ := locate_of_moveFault?_eq_none hfault
    rw [hlocate]
    exact .inr ⟨location, rfl, hdirectory, rfl⟩

theorem moveTo_eq_ok {source : Location} {bytes : List UInt8}
    (hrun : moveTo source bytes path tree = .ok () tree') :
    ∃ location, tree.locate path = .ok location ∧ tree.node? location ≠ some .directory ∧
      tree' = (tree.remove source).put location (.file bytes) := by
  rcases moveTo_cases source bytes path tree with ⟨fault, heq⟩ |
    ⟨location, hlocate, hdirectory, heq⟩
  · rw [heq] at hrun
    cases hrun
  · rw [heq] at hrun
    cases hrun
    exact ⟨location, hlocate, hdirectory, rfl⟩

/-- A file that was put in a vacant place for a while: once it is taken away, the tree has the nodes
that it had before. -/
theorem moved_wrote (htree : tree.WellFormed) {temporary location : Location}
    (hne : temporary ≠ []) (hvacant : tree.node? temporary = none) {between : FileTree}
    {bytes : List UInt8} (hhere : between.here = tree.here)
    (hnode : ∀ other, between.node? other =
      if other = temporary then some (.file bytes) else tree.node? other)
    (hlocate : between.locate path = .ok location)
    (hlocation : between.node? location ≠ some .directory) :
    Wrote tree ((between.remove temporary).put location (.file bytes)) path bytes location ∧
      tree.SameBut location ((between.remove temporary).put location (.file bytes)) := by
  have hclean : ∀ other, (between.remove temporary).node? other = tree.node? other :=
    node?_remove_eq htree hne hvacant fun other hother => by rw [hnode, if_neg hother]
  have hkept : between.KeptIn (between.remove temporary) := by
    refine ⟨rfl, fun other hother => ?_⟩
    rw [hnode] at hother
    split at hother
    case isTrue => cases hother
    case isFalse => rw [hclean, hother]
  -- the path may lead to the temporary file itself, which is no directory either
  have hdirectory : (between.remove temporary).node? location ≠ some .directory := by
    rw [hclean]
    intro hdirectory
    refine hlocation ?_
    rw [hnode, if_neg, hdirectory]
    rintro rfl
    rw [hvacant] at hdirectory
    cases hdirectory
  have hwellFormed : (between.remove temporary).WellFormed := htree.of_node?_eq hhere hclean
  have hmade : (between.remove temporary).MadeFrom tree := ⟨hhere, fun other => .inl (hclean other)⟩
  refine ⟨(wrote_put hwellFormed (hkept.locate hlocate) hdirectory bytes).of_made hmade, ?_⟩
  intro other hother
  rw [← hclean other]
  exact sameBut_put _ (hwellFormed.ne_nil_of_locate (hkept.locate hlocate) hdirectory) _ other
    hother

theorem writeAtomically_eq_ok (htree : tree.WellFormed)
    (hparent : tree.isDirectory path.parent = true) {stamp : String} {bytes : List UInt8}
    (hrun : writeAtomically stamp path bytes tree = .ok () tree') :
    Char.ofNat 0 ∉ path.name.toList ∧
      ∃ location, Wrote tree tree' path bytes location ∧ tree.SameBut location tree' := by
  obtain ⟨directory, hlocate, hdirectory⟩ := isDirectory_iff.mp hparent
  have hstatus : tree.status path.parent = .ok (directory, .directory) :=
    status_eq_ok_iff.mpr ⟨hlocate, hdirectory⟩
  unfold writeAtomically at hrun
  rw [Action.get_bind, hstatus] at hrun
  obtain ⟨temporary, between, hcreate, hrun⟩ := Action.bind_eq_ok_iff.mp hrun
  obtain ⟨rfl, hvacant, rfl, hnull⟩ := createIn_eq_ok hcreate
  -- the handler takes the temporary file away and fails all the same
  rw [Action.modify_bind, Action.tryCatch_eq_ok_iff] at hrun
  swap
  · exact fun fault between => Action.throw_ne_ok
  obtain ⟨location, hlocation, hnoDirectory, rfl⟩ := moveTo_eq_ok hrun
  have hne : directory ++ [temporaryName stamp path.name] ≠ [] := by simp
  refine ⟨?_, location, moved_wrote htree hne hvacant rfl ?_ hlocation hnoDirectory⟩
  · intro hname
    exact hnull (by simp [temporaryName, hname])
  · intro other
    rw [node?_put _ hne, node?_put _ hne]
    split <;> rfl

end RamlSchema.Files
