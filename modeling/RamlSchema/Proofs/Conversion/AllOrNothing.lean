import RamlSchema.Proofs.Conversion.Written

/-!
# Documents written whole or not at all

A document is refused before anything changes, or its bytes are written; and the bytes of a file
change in the last step alone. So a failed write leaves every file as it was, and at most
directories that lead to the one it was about.
-/

namespace RamlSchema.Conversion

open Files (FileTree Location OnWay Path)

/-- Nothing has changed in a place, unless a directory was made there on the way of a path. -/
def KeptOnWay (tree tree' : FileTree) (path : Path) (location : Location) : Prop :=
  tree'.node? location = tree.node? location ∨
    OnWay tree.here path location ∧ tree.node? location = none ∧
      tree'.node? location = some .directory

/-- **A document is written whole or not at all.** -/
theorem write_all_or_nothing {tree : FileTree} (htree : tree.WellFormed) (writer : Writer)
    (path : Path) (document : Json) (validate : Bool) :
    match writer.write path document validate tree with
    | .ok count tree' =>
      count = (Text.Utf8.encode document.print).length ∧
        tree'.readBytes path = .ok (Text.Utf8.encode document.print) ∧
        ∀ location, tree'.locate path ≠ .ok location → KeptOnWay tree tree' path.parent location
    | .error fault tree' =>
      (∀ location bytes, tree'.node? location = some (.file bytes) ↔
          tree.node? location = some (.file bytes)) ∧
        (∀ location, KeptOnWay tree tree' path.parent location) ∧
        ((∀ fault', fault ≠ .files fault') → tree' = tree) := by
  cases hrun : writer.write path document validate tree with
  | ok count tree' =>
    obtain ⟨hcount, -, hnull, between, location, h⟩ := Writer.write_eq_ok htree hrun
    refine ⟨hcount, FileTree.readBytes_eq_ok_iff.mpr
      ⟨hnull, location, h.wrote.locate_eq, h.wrote.node_eq⟩, fun other hother => ?_⟩
    have hne : other ≠ location := by
      rintro rfl
      exact hother h.wrote.locate_eq
    rw [KeptOnWay, h.sameBut other hne]
    exact h.made.node other
  | error fault tree' =>
    obtain ⟨hmade, hsame⟩ := Writer.write_eq_error htree hrun
    exact ⟨fun _ _ => hmade.file_iff, hmade.node, hsame⟩

/-- A tree with one empty file, in which no file is to be overwritten. -/
def bareTree : FileTree where
  nodes := [(["a"], .file [])]

def bareWriter : Writer := { output := .given (.known .error) (.bool true), stamp := "0" }

theorem wellFormed_bareTree : bareTree.WellFormed := FileTree.wellFormed_of_forall rfl (by decide)

/-- A new file in a new directory, a file that is there already, and a path through a file, on the
way to which a directory is made. -/
theorem write_all_or_nothing_sample :
    (∃ tree', bareWriter.write ⟨"", ["out", "b"]⟩ (.arr []) false bareTree = .ok 3 tree' ∧
      tree'.readBytes ⟨"", ["out", "b"]⟩ = .ok (Text.Utf8.encode (Json.arr []).print) ∧
      KeptOnWay bareTree tree' ⟨"", ["out"]⟩ ["a"]) ∧
    (∃ fault tree', bareWriter.write ⟨"", ["a"]⟩ (.arr []) false bareTree = .error fault tree' ∧
      tree' = bareTree) ∧
    ∃ fault tree', bareWriter.write ⟨"", ["new", "..", "a", "b"]⟩ (.arr []) false bareTree =
        .error fault tree' ∧
      tree'.node? ["new"] = some .directory ∧ tree'.node? ["a"] = some (.file []) := by
  refine ⟨?_, ?_, ?_⟩
  · obtain ⟨tree', hrun, hlocate⟩ : ∃ tree',
        bareWriter.write ⟨"", ["out", "b"]⟩ (.arr []) false bareTree = .ok 3 tree' ∧
          tree'.locate ⟨"", ["out", "b"]⟩ = .ok ["out", "b"] := ⟨_, rfl, rfl⟩
    have h := write_all_or_nothing wellFormed_bareTree bareWriter ⟨"", ["out", "b"]⟩ (.arr []) false
    rw [hrun] at h
    exact ⟨tree', hrun, h.2.1, h.2.2 ["a"] (by rw [hlocate]; decide)⟩
  · obtain ⟨tree', hrun⟩ : ∃ tree', bareWriter.write ⟨"", ["a"]⟩ (.arr []) false bareTree =
        .error (.outputExists "a") tree' := ⟨_, rfl⟩
    have h := write_all_or_nothing wellFormed_bareTree bareWriter ⟨"", ["a"]⟩ (.arr []) false
    rw [hrun] at h
    exact ⟨_, tree', hrun, h.2.2 nofun⟩
  · obtain ⟨fault, tree', hrun, hnew⟩ : ∃ fault tree',
        bareWriter.write ⟨"", ["new", "..", "a", "b"]⟩ (.arr []) false bareTree =
          .error fault tree' ∧ tree'.node? ["new"] = some .directory := ⟨_, _, rfl, rfl⟩
    have h := write_all_or_nothing wellFormed_bareTree bareWriter ⟨"", ["new", "..", "a", "b"]⟩
      (.arr []) false
    rw [hrun] at h
    exact ⟨fault, tree', hrun, hnew, (h.1 ["a"] []).mpr rfl⟩

end RamlSchema.Conversion
