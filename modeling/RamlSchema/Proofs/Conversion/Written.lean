import RamlSchema.Conversion.Directory
import RamlSchema.Proofs.Files.Outcomes
import RamlSchema.Proofs.Lists
import RamlSchema.Proofs.Text.Utf8

/-!
# What a row of writes leaves behind

A document that is written can be read back, so different documents have different files. In a row
of writes the last one to a place stays, and a document stands at its path exactly if no later
document with another content is written to the same place.
-/

namespace RamlSchema

namespace Conversion

open Files (FileTree Location MadeIn OnWay Path Wrote)

variable {tree tree' : FileTree} {path : Path} {document : Json}

/-! ### Content -/

theorem readsBack_iff :
    readsBack document = true ↔
      document ≠ .num .nan ∧ Json.read? document.print = some document := by
  simp [readsBack]

theorem readsBack_of_documentFault?_eq_none (hfault : documentFault? document = none) :
    readsBack document = true := by
  unfold documentFault? at hfault
  split at hfault
  case isTrue => cases hfault
  case isFalse h => simpa using h

/-- A file holds the document that its text is read as. -/
def Holds (tree : FileTree) (path : Path) (document : Json) : Prop :=
  ∃ text, tree.readBytes path = .ok (Text.Utf8.encode text) ∧ Json.read? text = some document

theorem Holds.unique {other : Json} (h : Holds tree path document) (h' : Holds tree path other) :
    document = other := by
  obtain ⟨text, hbytes, hread⟩ := h
  obtain ⟨text', hbytes', hread'⟩ := h'
  rw [hbytes] at hbytes'
  obtain rfl : text = text' := Text.Utf8.encode_injective (Except.ok.inj hbytes')
  rw [hread] at hread'
  exact Option.some_inj.mp hread'

theorem holds_of_node?_eq {location : Location} (hnull : path.hasNull = false)
    (hlocate : tree.locate path = .ok location)
    (hnode : tree.node? location = some (.file (Text.Utf8.encode document.print)))
    (hback : readsBack document = true) : Holds tree path document :=
  ⟨document.print, FileTree.readBytes_eq_ok_iff.mpr ⟨hnull, location, hlocate, hnode⟩,
    (readsBack_iff.mp hback).2⟩

/-! ### One document -/

theorem hasNull_eq_false {path : Path} (hparent : path.parent.hasNull = false)
    (hname : Char.ofNat 0 ∉ path.name.toList) : path.hasNull = false := by
  obtain ⟨root, parts⟩ := path
  rcases List.eq_nil_or_concat parts with rfl | ⟨parts, part, rfl⟩
  · rfl
  · simp_all [Path.hasNull, Path.parent, Path.name]

/-- What a successful step that writes a file has done: first directories on the way, and then the
file alone. -/
structure WroteOnWay (tree tree' : FileTree) (path : Path) (bytes : List UInt8)
    (between : FileTree) (location : Location) : Prop where
  made : MadeIn (OnWay tree.here path.parent) tree between
  wrote : Wrote between tree' path bytes location
  sameBut : between.SameBut location tree'

theorem writeBytes_eq_ok (htree : tree.WellFormed) {stamp : String} {atomic : Bool}
    {bytes : List UInt8} (hrun : writeBytes stamp atomic path bytes tree = .ok () tree') :
    path.hasNull = false ∧
      ∃ between location, WroteOnWay tree tree' path bytes between location := by
  obtain ⟨_, between, hdirectories, hrun⟩ := Files.Action.bind_eq_ok_iff.mp hrun
  obtain ⟨hensured, hnull⟩ := Files.ensureDirectories_eq_ok htree hdirectories
  have hmade := Files.ensureDirectories_made htree path.parent
  rw [Files.after_of_eq_ok hdirectories] at hmade
  cases atomic with
  | false =>
    obtain ⟨hpath, location, hwrote, hsame⟩ :=
      Files.writeDirectly_eq_ok hensured.wellFormed hrun
    exact ⟨hpath, between, location, hmade, hwrote, hsame⟩
  | true =>
    obtain ⟨hname, location, hwrote, hsame⟩ :=
      Files.writeAtomically_eq_ok hensured.wellFormed hensured.directory hrun
    refine ⟨hasNull_eq_false ?_ hname, between, location, hmade, hwrote, hsame⟩
    by_cases hparts : path.parent.parts = []
    · simp [Path.hasNull, hparts]
    · exact hnull hparts

theorem writeBytes_eq_error (htree : tree.WellFormed) {stamp : String} {atomic : Bool}
    {bytes : List UInt8} {fault : Files.Fault}
    (hrun : writeBytes stamp atomic path bytes tree = .error fault tree') :
    MadeIn (OnWay tree.here path.parent) tree tree' := by
  have hmade := Files.ensureDirectories_made htree path.parent
  rcases Files.Action.bind_eq_error_iff.mp hrun with hdirectories | ⟨_, between, hdirectories, hrun⟩
  · rwa [Files.after_of_eq_error hdirectories] at hmade
  · rw [Files.after_of_eq_ok hdirectories] at hmade
    cases atomic with
    | false =>
      obtain rfl := Files.eq_of_writeDirectly_eq_error hrun
      exact hmade
    | true =>
      exact hmade.trans
        ((Files.writeAtomically_eq_error hmade.wellFormed hrun).mono fun _ => False.elim)

theorem checkVacant_cases (mode : ModeSetting) (path : Path) (tree : FileTree) :
    checkVacant mode path tree = .ok () tree ∨
      ∃ fault, checkVacant mode path tree = .error fault tree := by
  unfold checkVacant
  split
  case isFalse => exact .inl rfl
  case isTrue =>
    rw [Files.Action.get_bind]
    cases tree.look path with
    | error fault => exact .inr ⟨_, rfl⟩
    | ok node =>
      cases node with
      | some node => exact .inr ⟨_, rfl⟩
      | none => exact .inl rfl

/-- A document is either refused before anything changes, or its bytes are written. -/
theorem Writer.write_cases (writer : Writer) (path : Path) (document : Json) (validate : Bool)
    (tree : FileTree) :
    (∃ fault, writer.write path document validate tree = .error fault tree) ∨
      (validate = true → documentFault? document = none) ∧
        ∃ atomic, writer.write path document validate tree =
          (onFiles (writeBytes writer.stamp atomic path (Text.Utf8.encode document.print)) >>=
            fun _ => pure (Text.Utf8.encode document.print).length) tree := by
  unfold Writer.write
  cases outputInUse writer.output with
  | error fault => exact .inl ⟨_, rfl⟩
  | ok inUse =>
    obtain ⟨mode, atomic⟩ := inUse
    rcases checkVacant_cases mode path tree with hvacant | ⟨fault, hvacant⟩
    · simp only [Files.Action.bind_of_eq_ok hvacant]
      cases validate with
      | false => exact .inr ⟨nofun, atomic, rfl⟩
      | true =>
        cases documentFault? document with
        | some fault => exact .inl ⟨fault, rfl⟩
        | none => exact .inr ⟨fun _ => rfl, atomic, rfl⟩
    · exact .inl ⟨fault, Files.Action.bind_of_eq_error hvacant _⟩

theorem Writer.write_eq_ok (htree : tree.WellFormed) {writer : Writer} {validate : Bool}
    {count : Nat} (hrun : writer.write path document validate tree = .ok count tree') :
    count = (Text.Utf8.encode document.print).length ∧
      (validate = true → documentFault? document = none) ∧ path.hasNull = false ∧
      ∃ between location,
        WroteOnWay tree tree' path (Text.Utf8.encode document.print) between location := by
  rcases writer.write_cases path document validate tree with ⟨fault, hrefused⟩ |
    ⟨hfault, atomic, hwrite⟩
  · rw [hrefused] at hrun
    cases hrun
  · rw [hwrite] at hrun
    obtain ⟨_, between, hwrite, hrun⟩ := Files.Action.bind_eq_ok_iff.mp hrun
    obtain ⟨rfl, rfl⟩ := Files.Action.pure_eq_ok_iff.mp hrun
    exact ⟨rfl, hfault, writeBytes_eq_ok htree (onFiles_eq_ok_iff.mp hwrite)⟩

/-- A write that fails leaves at most directories, and none if the fault is not one of files. -/
theorem Writer.write_eq_error (htree : tree.WellFormed) {writer : Writer} {validate : Bool}
    {fault : Fault} (hrun : writer.write path document validate tree = .error fault tree') :
    MadeIn (OnWay tree.here path.parent) tree tree' ∧
      ((∀ fault', fault ≠ .files fault') → tree' = tree) := by
  rcases writer.write_cases path document validate tree with ⟨fault, hrefused⟩ |
    ⟨-, atomic, hbytes⟩
  · rw [hrefused] at hrun
    obtain ⟨rfl, rfl⟩ := EStateM.Result.error.inj hrun
    exact ⟨.refl htree _, fun _ => rfl⟩
  · rw [hbytes] at hrun
    rcases Files.Action.bind_eq_error_iff.mp hrun with hfiles | ⟨_, _, -, hrun⟩
    · obtain ⟨fault', rfl, hwrite⟩ := onFiles_eq_error_iff.mp hfiles
      exact ⟨writeBytes_eq_error htree hwrite, fun hfault => absurd rfl (hfault fault')⟩
    · cases hrun

/-! ### All of them -/

/-- What a successful row of writes has done. -/
structure AllWritten (tree tree' : FileTree) (documents : List (Path × Json)) : Prop where
  keptIn : tree.KeptIn tree'
  wellFormed : tree'.WellFormed
  readsBack : ∀ file ∈ documents, readsBack file.2 = true
  hasNull_eq : ∀ file ∈ documents, file.1.hasNull = false
  locates : ∀ file ∈ documents, ∃ location, tree'.locate file.1 = .ok location
  last : ∀ before file after location, documents = before ++ file :: after →
    tree'.locate file.1 = .ok location → (∀ later ∈ after, tree'.locate later.1 ≠ .ok location) →
    tree'.node? location = some (.file (Text.Utf8.encode file.2.print))
  others : ∀ location, (∀ file ∈ documents, tree'.locate file.1 ≠ .ok location) →
    tree'.node? location = tree.node? location ∨
      tree.node? location = none ∧ tree'.node? location = some .directory

theorem allWritten_nil (htree : tree.WellFormed) : AllWritten tree tree [] where
  keptIn := .refl tree
  wellFormed := htree
  readsBack := List.forall_mem_nil _
  hasNull_eq := List.forall_mem_nil _
  locates := List.forall_mem_nil _
  last := by
    intro before file after location hdocuments
    simp at hdocuments
  others := fun location _ => .inl rfl

/-- A document in front of the others. Its place is overwritten if a later one leads there too. -/
theorem AllWritten.cons {between : FileTree} {documents : List (Path × Json)} {location : Location}
    (hfault : documentFault? document = none) (hnull : path.hasNull = false)
    (hwrote : Wrote tree between path (Text.Utf8.encode document.print) location)
    (h : AllWritten between tree' documents) :
    AllWritten tree tree' ((path, document) :: documents) where
  keptIn := hwrote.keptIn.trans h.keptIn
  wellFormed := h.wellFormed
  readsBack := List.forall_mem_cons.mpr ⟨readsBack_of_documentFault?_eq_none hfault, h.readsBack⟩
  hasNull_eq := List.forall_mem_cons.mpr ⟨hnull, h.hasNull_eq⟩
  locates := List.forall_mem_cons.mpr ⟨⟨location, h.keptIn.locate hwrote.locate_eq⟩, h.locates⟩
  last := by
    intro before file after location' hdocuments hlocate hafter
    cases before with
    | cons first before =>
      exact h.last before file after location' (List.cons.inj hdocuments).2 hlocate hafter
    | nil =>
      obtain ⟨rfl, rfl⟩ := List.cons.inj hdocuments
      rw [h.keptIn.locate hwrote.locate_eq] at hlocate
      obtain rfl := Except.ok.inj hlocate
      rcases h.others location hafter with hsame | ⟨hnone, -⟩
      · rw [hsame, hwrote.node_eq]
      · rw [hwrote.node_eq] at hnone
        cases hnone
  others := by
    intro location' hlocation'
    obtain ⟨hfirst, hlater⟩ := List.forall_mem_cons.mp hlocation'
    have hne : location' ≠ location := by
      rintro rfl
      exact hfirst (h.keptIn.locate hwrote.locate_eq)
    exact Files.sameOrMade_trans (hwrote.others location' hne) (h.others location' hlater)

theorem AllWritten.of_made {between : FileTree} {documents : List (Path × Json)}
    (hmade : between.MadeFrom tree) (h : AllWritten between tree' documents) :
    AllWritten tree tree' documents where
  keptIn := hmade.keptIn.trans h.keptIn
  wellFormed := h.wellFormed
  readsBack := h.readsBack
  hasNull_eq := h.hasNull_eq
  locates := h.locates
  last := h.last
  others := fun location hlocation =>
    Files.sameOrMade_trans (hmade.node location) (h.others location hlocation)

theorem writeAll_cons (writer : Writer) (file : Path × Json) (documents : List (Path × Json)) :
    writeAll writer (file :: documents) =
      writer.write file.1 file.2 true >>= fun _ => writeAll writer documents := by
  have hsplit : writeAll writer (file :: documents) =
      (writer.write file.1 file.2 true >>= fun _ => pure ⟨⟩ : Action Unit) >>=
        fun _ => writeAll writer documents := rfl
  rw [hsplit, bind_assoc]
  rfl

theorem allWritten_of_writeAll (htree : tree.WellFormed) {writer : Writer}
    {documents : List (Path × Json)} (hrun : writeAll writer documents tree = .ok () tree') :
    AllWritten tree tree' documents := by
  induction documents generalizing tree with
  | nil =>
    obtain ⟨-, rfl⟩ := Files.Action.pure_eq_ok_iff.mp hrun
    exact allWritten_nil htree
  | cons file documents ih =>
    rw [writeAll_cons] at hrun
    obtain ⟨count, between', hwrite, hrun⟩ := Files.Action.bind_eq_ok_iff.mp hrun
    obtain ⟨-, hfault, hnull, between, location, h⟩ := Writer.write_eq_ok htree hwrite
    exact .cons (hfault rfl) hnull (h.wrote.of_made h.made.madeFrom) (ih h.wrote.wellFormed hrun)

/-- The file at a path holds the last of the documents that were written to the same place. -/
theorem AllWritten.holds_last {documents before after : List (Path × Json)} {file : Path × Json}
    (h : AllWritten tree tree' documents) (hdocuments : documents = before ++ file :: after)
    (hafter : ∀ later ∈ after, tree'.locate later.1 ≠ tree'.locate file.1)
    (hpath : tree'.locate path = tree'.locate file.1) (hnull : path.hasNull = false) :
    Holds tree' path file.2 := by
  have hmem : file ∈ documents := by simp [hdocuments]
  obtain ⟨location, hlocate⟩ := h.locates _ hmem
  rw [hlocate] at hafter hpath
  exact holds_of_node?_eq hnull hpath (h.last before file after location hdocuments hlocate hafter)
    (h.readsBack _ hmem)

/-- A document that has been written stands at its path until a later one with another content is
written to the same place. -/
theorem AllWritten.holds_iff {documents before after : List (Path × Json)}
    (h : AllWritten tree tree' documents)
    (hdocuments : documents = before ++ (path, document) :: after)
    (hafter : ∀ later ∈ after, later.2 ≠ document) :
    Holds tree' path document ↔ ∀ later ∈ after, tree'.locate later.1 ≠ tree'.locate path := by
  have hmem : (path, document) ∈ documents := by simp [hdocuments]
  constructor
  · intro hholds later hlater hsame
    have hlocated : ∃ file ∈ after, tree'.locate file.1 = tree'.locate path :=
      ⟨later, hlater, hsame⟩
    obtain ⟨between, last, rest, hsplit, hlast, hrest⟩ := exists_last_of_exists hlocated
    have hlastMem : last ∈ after := by simp [hsplit]
    have hdocuments' : documents = (before ++ (path, document) :: between) ++ last :: rest := by
      rw [hdocuments, hsplit, List.append_assoc, List.cons_append]
    rw [← hlast] at hrest
    refine hafter last hlastMem (Holds.unique ?_ hholds)
    exact h.holds_last hdocuments' hrest hlast.symm (h.hasNull_eq _ hmem)
  · intro hother
    exact h.holds_last hdocuments hother rfl (h.hasNull_eq _ hmem)

/-- Different documents all stand at their paths exactly if no two are written to one place. -/
theorem AllWritten.forall_holds_iff {documents : List (Path × Json)}
    (h : AllWritten tree tree' documents)
    (hdistinct : documents.Pairwise fun file later => later.2 ≠ file.2) :
    (∀ file ∈ documents, Holds tree' file.1 file.2) ↔
      documents.Pairwise fun file later => tree'.locate later.1 ≠ tree'.locate file.1 := by
  rw [pairwise_iff_forall_append] at hdistinct ⊢
  constructor
  · intro hholds before file after hsplit
    exact (h.holds_iff hsplit (hdistinct before file after hsplit)).mp
      (hholds file (by simp [hsplit]))
  · intro hplaces file hfile
    obtain ⟨before, after, hsplit⟩ := List.append_of_mem hfile
    exact (h.holds_iff hsplit (hdistinct before file after hsplit)).mpr
      (hplaces before file after hsplit)

end Conversion

end RamlSchema
