import Mathlib.Data.List.Lex
import Mathlib.Data.String.Basic
import RamlSchema.Proofs.Conversion.Places
import RamlSchema.Proofs.Files.Without
import RamlSchema.Proofs.Lists

/-!
# Source files that are missing

A source file is discovered by its name and by being a file. So where some files are missing, the
source files are those that are left, in the same order. The directories that are looked through are
the same, because a path through a file leads nowhere, as one through nothing does.
-/

namespace RamlSchema

open Files (FileTree Location Node Path OnWay)

/-! ### Missing files -/

namespace Files

open FileTree

variable {gone : List Location} {tree : FileTree} {path : Path} {location : Location}

/-- The places are those of files that a path can name. -/
structure NamedFiles (tree : FileTree) (gone : List Location) : Prop where
  file : ∀ location ∈ gone, ∃ bytes, tree.node? location = some (.file bytes)
  name : ∀ location ∈ gone, ∃ directory part, location = directory ++ [part] ∧
    Path.IsPart part ∧ part ≠ ".."

theorem NamedFiles.node?_eq_none (hgone : NamedFiles tree gone) (hlocation : location ∈ gone) :
    (tree.without gone).node? location = none := by
  obtain ⟨directory, part, rfl, -⟩ := hgone.name location hlocation
  exact node?_without_of_mem hlocation (by simp)

theorem NamedFiles.notMem_of_directory (hgone : NamedFiles tree gone)
    (hdirectory : tree.node? location = some .directory) : location ∉ gone := by
  intro hlocation
  obtain ⟨bytes, hfile⟩ := hgone.file location hlocation
  rw [hdirectory] at hfile
  cases hfile

theorem NamedFiles.keptIn (hgone : NamedFiles tree gone) : tree.KeptIn (tree.without gone) where
  here_eq := rfl
  directory := by
    intro location hdirectory
    rw [node?_without_of_notMem (hgone.notMem_of_directory hdirectory), hdirectory]

/-- A path leads to the same place, or it passes through one of the files. -/
theorem NamedFiles.foldlM_walkPart (hgone : NamedFiles tree gone) (parts : List String)
    (start : Location) :
    parts.foldlM (tree.without gone).walkPart start = parts.foldlM tree.walkPart start ∨
      parts.foldlM tree.walkPart start = .error .notDirectory ∧
        parts.foldlM (tree.without gone).walkPart start = .error .missing := by
  induction parts generalizing start with
  | nil => exact .inl rfl
  | cons part parts ih =>
    rw [List.foldlM_cons, List.foldlM_cons]
    by_cases hstart : start ∈ gone
    · obtain ⟨bytes, hfile⟩ := hgone.file start hstart
      have hwalk : tree.walkPart start part = .error .notDirectory := by rw [walkPart, hfile]
      have hwalk' : (tree.without gone).walkPart start part = .error .missing := by
        rw [walkPart, hgone.node?_eq_none hstart]
      rw [hwalk, hwalk']
      exact .inr ⟨rfl, rfl⟩
    · rw [walkPart_without hstart]
      cases tree.walkPart start part with
      | error cause => exact .inl rfl
      | ok next => exact ih next

theorem NamedFiles.locate (hgone : NamedFiles tree gone) (path : Path) :
    (tree.without gone).locate path = tree.locate path ∨
      tree.locate path = .error .notDirectory ∧
        (tree.without gone).locate path = .error .missing := by
  rw [FileTree.locate, FileTree.locate]
  cases path.isTooLong with
  | true => exact .inl rfl
  | false => exact hgone.foldlM_walkPart path.parts _

theorem NamedFiles.status_of_eq_ok (hgone : NamedFiles tree gone) {node : Node}
    (hstatus : tree.status path = .ok (location, node)) :
    (tree.without gone).status path =
      if location ∈ gone then .error .missing else .ok (location, node) := by
  obtain ⟨hlocate, hnode⟩ := status_eq_ok_iff.mp hstatus
  have hlocate' := hgone.keptIn.locate hlocate
  split
  case isTrue hmem =>
    rw [FileTree.status, hlocate']
    simp only [bind, Except.bind, hgone.node?_eq_none hmem]
  case isFalse hmem =>
    exact status_eq_ok_iff.mpr ⟨hlocate', by rw [node?_without_of_notMem hmem, hnode]⟩

theorem NamedFiles.status_of_eq_error (hgone : NamedFiles tree gone) {cause : Cause}
    (hstatus : tree.status path = .error cause) :
    (tree.without gone).status path = .error cause ∨
      cause = .notDirectory ∧ (tree.without gone).status path = .error .missing := by
  rw [FileTree.status] at hstatus ⊢
  rcases hgone.locate path with hsame | ⟨hfile, hmissing⟩
  · left
    rw [hsame]
    cases hlocate : tree.locate path with
    | error cause' => rwa [hlocate] at hstatus
    | ok location =>
      rw [hlocate] at hstatus
      simp only [bind, Except.bind] at hstatus ⊢
      have hmem : location ∉ gone := by
        intro hmem
        obtain ⟨bytes, hnode⟩ := hgone.file location hmem
        rw [hnode] at hstatus
        cases hstatus
      rwa [node?_without_of_notMem hmem]
  · right
    rw [hfile] at hstatus
    rw [hmissing]
    exact ⟨(Except.error.inj hstatus).symm, rfl⟩

/-- What a path leads to, unless it is one of the files. -/
theorem NamedFiles.look (hgone : NamedFiles tree gone) {found : Option Node}
    (hlook : tree.look path = .ok found) :
    (tree.without gone).look path =
      .ok (if path.place tree.here ∈ gone then none else found) := by
  unfold FileTree.look at hlook ⊢
  cases hnull : path.hasNull with
  | true =>
    rw [hnull] at hlook
    obtain rfl := Except.ok.inj hlook
    rw [ite_self]
    rfl
  | false =>
    rw [hnull] at hlook
    simp only [Bool.false_eq_true, if_false] at hlook ⊢
    cases hstatus : tree.status path with
    | ok status =>
      obtain ⟨location, node⟩ := status
      rw [hstatus] at hlook
      obtain rfl := Except.ok.inj hlook
      rw [hgone.status_of_eq_ok hstatus, ← eq_place_of_locate (status_eq_ok_iff.mp hstatus).1]
      by_cases hmem : location ∈ gone
      · rw [if_pos hmem, if_pos hmem]
      · rw [if_neg hmem, if_neg hmem]
    | error cause =>
      rw [hstatus] at hlook
      obtain rfl : found = none := by cases cause <;> cases hlook <;> rfl
      rw [ite_self]
      rcases hgone.status_of_eq_error hstatus with hsame | ⟨rfl, hmissing⟩
      · rw [hsame, hlook]
      · rw [hmissing]

theorem NamedFiles.looksLikeFile (hgone : NamedFiles tree gone) {found : Bool}
    (hfile : tree.looksLikeFile path = .ok found) :
    (tree.without gone).looksLikeFile path = .ok (found && path.place tree.here ∉ gone) := by
  unfold FileTree.looksLikeFile at hfile ⊢
  cases hlook : tree.look path with
  | error fault =>
    rw [hlook] at hfile
    cases hfile
  | ok node =>
    rw [hlook] at hfile
    obtain rfl := Except.ok.inj hfile
    rw [hgone.look hlook]
    by_cases hmem : path.place tree.here ∈ gone
    · simp [hmem, Except.map]
    · simp [hmem, Except.map]

theorem NamedFiles.listDirectory (hgone : NamedFiles tree gone) {names : List String}
    (hnames : tree.listDirectory path = .ok names) :
    (tree.without gone).listDirectory path =
      .ok (names.filter fun name => path.place tree.here ++ [name] ∉ gone) := by
  obtain ⟨hnull, location, hlocate, hdirectory, rfl⟩ := listDirectory_eq_ok_iff.mp hnames
  refine listDirectory_eq_ok_iff.mpr ⟨hnull, location, hgone.keptIn.locate hlocate,
    hgone.keptIn.directory location hdirectory, ?_⟩
  rw [names_without, eq_place_of_locate hlocate]

theorem NamedFiles.readBytes (hgone : NamedFiles tree gone) {bytes : List UInt8}
    (hread : tree.readBytes path = .ok bytes) (hpath : path.place tree.here ∉ gone) :
    (tree.without gone).readBytes path = .ok bytes := by
  obtain ⟨hnull, location, hlocate, hfile⟩ := readBytes_eq_ok_iff.mp hread
  rw [← eq_place_of_locate hlocate] at hpath
  exact readBytes_eq_ok_iff.mpr ⟨hnull, location, hgone.keptIn.locate hlocate,
    by rw [node?_without_of_notMem hpath, hfile]⟩

theorem eq_of_readBytes_eq_ok {other : Path} {bytes bytes' : List UInt8}
    (hread : tree.readBytes path = .ok bytes) (hother : tree.readBytes other = .ok bytes')
    (hplace : path.place tree.here = other.place tree.here) : bytes = bytes' := by
  obtain ⟨-, location, hlocate, hfile⟩ := readBytes_eq_ok_iff.mp hread
  obtain ⟨-, location', hlocate', hfile'⟩ := readBytes_eq_ok_iff.mp hother
  obtain rfl : location = location' :=
    (eq_place_of_locate hlocate).trans (hplace.trans (eq_place_of_locate hlocate').symm)
  cases hfile.symm.trans hfile'
  rfl

end Files

/-! ### Missing source files -/

theorem Files.Path.filter_sorted (p : Path → Bool) (paths : List Path) :
    (Path.sorted paths).filter p = Path.sorted (paths.filter p) := by
  refine filter_mergeSort (fun a b c hab hbc => ?_) (fun a b => ?_) p paths
  · simp only [Bool.not_eq_true', decide_eq_false_iff_not, not_lt] at hab hbc ⊢
    exact hab.trans hbc
  · simp only [Bool.or_eq_true, Bool.not_eq_true', decide_eq_false_iff_not, not_lt]
    exact le_total _ _

namespace Conversion

variable {settings : Settings} {tree : FileTree} {gone : List Location} {directory : Path}

/-- A name that is missing in a directory is that of a missing file. -/
theorem place_child_mem (hgone : Files.NamedFiles tree gone) {name : String}
    (hname : directory.place tree.here ++ [name] ∈ gone) :
    (directory.child name).place tree.here ∈ gone := by
  obtain ⟨parent, part, heq, hpart, hup⟩ := hgone.name _ hname
  obtain ⟨-, hlast⟩ := List.append_inj' heq rfl
  obtain rfl := List.singleton_inj.mp hlast
  rwa [hpart.child, Files.place_within _ (by simpa using Ne.symm hup)]

theorem filterM_looksLikeFile_without (hgone : Files.NamedFiles tree gone) {names : List String}
    {found : List Path}
    (hfound : (names.map directory.child).filterM tree.looksLikeFile = .ok found) :
    ((names.filter fun name => directory.place tree.here ++ [name] ∉ gone).map
        directory.child).filterM (tree.without gone).looksLikeFile =
      .ok (found.filter fun path => path.place tree.here ∉ gone) := by
  obtain ⟨isFile, hisFile, rfl⟩ := filterM_eq_ok_iff.mp hfound
  refine filterM_eq_ok_iff.mpr
    ⟨fun path => isFile path && path.place tree.here ∉ gone, fun path hpath => ?_, ?_⟩
  · refine hgone.looksLikeFile (hisFile path ?_)
    obtain ⟨name, hname, rfl⟩ := List.mem_map.mp hpath
    exact List.mem_map_of_mem (List.mem_of_mem_filter hname)
  · rw [List.filter_map, List.filter_map, List.filter_map, List.filter_filter, List.filter_filter]
    -- A missing file is left out twice: it is no longer listed, and no longer a file.
    congr 1
    refine List.filter_congr fun name _ => ?_
    by_cases hname : directory.place tree.here ++ [name] ∈ gone
    · simp [hname, place_child_mem hgone hname]
    · simp [hname, Bool.and_comm]

theorem filesWithEnding_without (hgone : Files.NamedFiles tree gone) {files : List Path}
    (hfiles : filesWithEnding settings tree directory = .ok files) :
    filesWithEnding settings (tree.without gone) directory =
      .ok (files.filter fun path => path.place tree.here ∉ gone) := by
  unfold filesWithEnding at hfiles ⊢
  obtain ⟨names, hnames, hfiles⟩ := bind_eq_ok_iff.mp hfiles
  obtain ⟨found, hfound, hfiles⟩ := bind_eq_ok_iff.mp hfiles
  refine bind_eq_ok_iff.mpr
    ⟨_, mapError_eq_ok_iff.mpr (hgone.listDirectory (mapError_eq_ok_iff.mp hnames)), ?_⟩
  refine bind_eq_ok_iff.mpr
    ⟨_, mapError_eq_ok_iff.mpr
      (filterM_looksLikeFile_without hgone (mapError_eq_ok_iff.mp hfound)), ?_⟩
  -- The ending is looked at where there is a file, and there may be none left.
  cases found with
  | nil =>
    obtain rfl := Except.ok.inj hfiles
    rfl
  | cons first rest =>
    obtain ⟨ending, hending, hfiles⟩ := bind_eq_ok_iff.mp hfiles
    obtain rfl := Except.ok.inj hfiles
    rw [hending, List.filter_filter]
    simp only [Bool.and_comm]
    rw [← List.filter_filter]
    cases (first :: rest).filter fun path => path.place tree.here ∉ gone with
    | nil => rfl
    | cons next others => rfl

/-- The steps of a discovery that succeeds. -/
theorem discover_eq_ok_iff {sources : List Path} :
    discover settings tree directory = .ok sources ↔
      ∃ used excluded top enumPath found enums,
        settings.inUse = .ok used ∧ used.excludedNames = .ok excluded ∧
        filesWithEnding used tree directory = .ok top ∧ used.enumPath = .ok enumPath ∧
        tree.look (directory.child enumPath) = .ok found ∧
        (if found = some .directory then filesWithEnding used tree (directory.child enumPath)
          else .ok []) = .ok enums ∧
        sources = Path.sorted (top.filter fun path => !excluded.contains path.name) ++
          Path.sorted enums := by
  unfold discover
  simp only [bind_eq_ok_iff, ofSetting, ofFiles, mapError_eq_ok_iff]
  constructor
  · rintro ⟨used, hused, excluded, hexcluded, top, htop, enumPath, hpath, found, hfound, h⟩
    refine ⟨used, excluded, top, enumPath, found, ?_⟩
    split at h
    case h_1 =>
      obtain ⟨enums, henums, h⟩ := bind_eq_ok_iff.mp h
      exact ⟨enums, hused, hexcluded, htop, hpath, hfound, henums, (Except.ok.inj h).symm⟩
    case h_2 hother =>
      obtain ⟨enums, henums, h⟩ := bind_eq_ok_iff.mp h
      exact ⟨enums, hused, hexcluded, htop, hpath, hfound, (if_neg hother).trans henums,
        (Except.ok.inj h).symm⟩
  · rintro ⟨used, excluded, top, enumPath, found, enums, hused, hexcluded, htop, hpath, hfound,
      henums, rfl⟩
    refine ⟨used, hused, excluded, hexcluded, top, htop, enumPath, hpath, found, hfound, ?_⟩
    split
    case h_1 => exact bind_eq_ok_iff.mpr ⟨enums, henums, rfl⟩
    case h_2 hother =>
      rw [if_neg hother] at henums
      exact bind_eq_ok_iff.mpr ⟨enums, henums, rfl⟩

theorem discover_without (hgone : Files.NamedFiles tree gone) {sources : List Path}
    (hsources : discover settings tree directory = .ok sources) :
    discover settings (tree.without gone) directory =
      .ok (sources.filter fun path => path.place tree.here ∉ gone) := by
  obtain ⟨used, excluded, top, enumPath, found, enums, hused, hexcluded, htop, hpath, hfound,
    henums, rfl⟩ := discover_eq_ok_iff.mp hsources
  refine discover_eq_ok_iff.mpr ⟨used, excluded, _, enumPath, _,
    enums.filter fun path => path.place tree.here ∉ gone, hused, hexcluded,
    filesWithEnding_without hgone htop, hpath, hgone.look hfound, ?_, ?_⟩
  · by_cases hfound' : found = some .directory
    · subst hfound'
      obtain ⟨-, location, hlocate, hdirectory⟩ := Files.FileTree.look_eq_some_iff.mp hfound
      have hmem := hgone.notMem_of_directory hdirectory
      rw [Files.eq_place_of_locate hlocate] at hmem
      rw [if_pos rfl] at henums
      rw [if_neg hmem, if_pos rfl]
      exact filesWithEnding_without hgone henums
    · rw [if_neg hfound'] at henums
      obtain rfl := Except.ok.inj henums
      rw [if_neg]
      · rfl
      · split
        · nofun
        · exact hfound'
  · rw [List.filter_append, Path.filter_sorted, Path.filter_sorted, List.filter_filter,
      List.filter_filter]
    simp only [Bool.and_comm]

/-! ### Discovered source files -/

/-- A file that has been found under some name in a directory. -/
structure Found (tree : FileTree) (source : Path) : Prop where
  child : ∃ parent name, tree.isDirectory parent = true ∧ source = Path.child parent name
  readable : ∃ bytes, tree.readBytes source = .ok bytes

theorem found_of_mem_filesWithEnding {files : List Path} {path : Path}
    (hfiles : filesWithEnding settings tree directory = .ok files) (hpath : path ∈ files) :
    Found tree path := by
  unfold filesWithEnding at hfiles
  obtain ⟨names, hnames, hfiles⟩ := bind_eq_ok_iff.mp hfiles
  obtain ⟨found, hfound, hfiles⟩ := bind_eq_ok_iff.mp hfiles
  have hmem : path ∈ found := by
    split at hfiles
    case isTrue =>
      obtain rfl := Except.ok.inj hfiles
      cases hpath
    case isFalse =>
      obtain ⟨ending, -, hfiles⟩ := bind_eq_ok_iff.mp hfiles
      obtain rfl := Except.ok.inj hfiles
      exact List.mem_of_mem_filter hpath
  obtain ⟨-, location, hlocate, hdirectory, -⟩ :=
    Files.FileTree.listDirectory_eq_ok_iff.mp (mapError_eq_ok_iff.mp hnames)
  obtain ⟨isFile, hisFile, rfl⟩ := filterM_eq_ok_iff.mp (mapError_eq_ok_iff.mp hfound)
  obtain ⟨hname, htrue⟩ := List.mem_filter.mp hmem
  obtain ⟨name, -, heq⟩ := List.mem_map.mp hname
  refine ⟨⟨directory, name, Files.isDirectory_iff.mpr ⟨location, hlocate, hdirectory⟩, heq.symm⟩,
    Files.FileTree.looksLikeFile_eq_true_iff.mp ?_⟩
  rw [hisFile path hname, htrue]

theorem found_of_mem_discover {sources : List Path} {source : Path}
    (hsources : discover settings tree directory = .ok sources) (hsource : source ∈ sources) :
    Found tree source := by
  obtain ⟨used, excluded, top, enumPath, found, enums, -, -, htop, -, -, henums, rfl⟩ :=
    discover_eq_ok_iff.mp hsources
  have hmem : source ∈ top ∨ source ∈ enums :=
    (List.mem_append.mp hsource).imp
      (fun h => List.mem_of_mem_filter (List.mem_mergeSort.mp h)) List.mem_mergeSort.mp
  rcases hmem with hmem | hmem
  · exact found_of_mem_filesWithEnding htop hmem
  · split at henums
    case isTrue => exact found_of_mem_filesWithEnding henums hmem
    case isFalse =>
      obtain rfl := Except.ok.inj henums
      cases hmem

theorem Found.exists_name (htree : tree.WellFormed) {source : Path} (h : Found tree source) :
    ∃ parent part, source.place tree.here = parent ++ [part] ∧ Path.IsPart part ∧ part ≠ ".." := by
  obtain ⟨⟨directory, name, hdirectory, rfl⟩, bytes, hread⟩ := h
  obtain ⟨-, location, hlocate, hfile⟩ := Files.FileTree.readBytes_eq_ok_iff.mp hread
  have hnot : tree.node? location ≠ some .directory := by
    rw [hfile]
    nofun
  obtain ⟨parent, part, heq, -, hlast, hup⟩ := htree.exists_last_of_locate hlocate hnot
  have hplace := (Files.eq_place_of_locate hlocate).symm.trans heq
  suffices hmem : part ∈ (Path.ofText name).parts from
    ⟨parent, part, hplace, Path.isPart_of_mem_ofText hmem, hup⟩
  unfold Path.child Path.join at hlast hlocate
  split at hlast
  case isTrue => exact List.mem_of_getLast? hlast
  case isFalse hrelative =>
    rw [if_neg hrelative] at hlocate
    -- A name such as a dot would lead to the directory itself.
    by_cases hparts : (Path.ofText name).parts = []
    · obtain ⟨location', hlocate', hnode⟩ := Files.isDirectory_iff.mp hdirectory
      rw [hparts, Path.within, List.append_nil, hlocate'] at hlocate
      obtain rfl := Except.ok.inj hlocate
      exact absurd hnode hnot
    · rw [Path.within, List.getLast?_append_of_ne_nil _ hparts] at hlast
      exact List.mem_of_getLast? hlast

/-- The places of source files are those of files that a path can name. -/
theorem namedFiles_of_found (htree : tree.WellFormed)
    (hgone : ∀ location ∈ gone, ∃ source, Found tree source ∧ location = source.place tree.here) :
    Files.NamedFiles tree gone where
  file := by
    intro location hlocation
    obtain ⟨source, hfound, rfl⟩ := hgone location hlocation
    obtain ⟨bytes, hread⟩ := hfound.readable
    obtain ⟨-, location, hlocate, hfile⟩ := Files.FileTree.readBytes_eq_ok_iff.mp hread
    exact ⟨bytes, by rw [← Files.eq_place_of_locate hlocate, hfile]⟩
  name := by
    intro location hlocation
    obtain ⟨source, hfound, rfl⟩ := hgone location hlocation
    exact hfound.exists_name htree

end Conversion

end RamlSchema
