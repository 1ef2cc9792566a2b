import RamlSchema.Proofs.Conversion.Confinement

/-!
# Files in error mode

In error mode a document is written only where nothing is found at its path. But the path is looked
at before the directories around it are made. A path with double dots may pass through a directory
that is still missing, and then nothing is found, although a file lies where the path leads once the
directory is there. So it is not enough that every write sees its path vacant. What a row of writes
keeps is that each of its paths led to nothing before the row, neither to a file that was there nor
to one that the row has made itself; and a path that goes straight down from a directory that exists
leads to whatever lies there, so it is not one of those that change their end.
-/

namespace RamlSchema.Conversion

open Files (Action.after FileTree Location MadeIn Path after_bind_of_eq_error after_bind_of_eq_ok
  after_bind_pure after_of_eq_error isDirectory_iff)
open Raml (Declaration)
open Report (Kind Run)
open Schema (document)

variable {tree tree' between : FileTree} {settings used : Settings} {input output path : Path}
  {sources : List Path} {location : Location} {writer : Writer} {atomic : Json} {stamp : String}
  {documents : List (Path × Json)}

/-! ### Paths that lead down -/

/-- The path goes straight down from a directory that is there. -/
def LeadsDown (tree : FileTree) (path : Path) : Prop :=
  ∃ directory names, path = directory.within names ∧ tree.isDirectory directory = true ∧
    ".." ∉ names

theorem LeadsDown.of_keptIn (h : LeadsDown tree path) (hkept : tree.KeptIn tree') :
    LeadsDown tree' path := by
  obtain ⟨directory, names, rfl, hdirectory, hup⟩ := h
  exact ⟨directory, names, rfl, hkept.isDirectory hdirectory, hup⟩

/-- All that lies above a node is there, so names that lead to it in a later tree lead to it now. -/
theorem foldlM_walkPart_of_node (htree : tree.WellFormed) {names : List String}
    (hup : ".." ∉ names) {base : Location} (hbase : tree.node? base = some .directory)
    (hwalk : names.foldlM tree'.walkPart base = .ok location)
    (hnode : tree.node? location ≠ none) : names.foldlM tree.walkPart base = .ok location := by
  induction names generalizing base with
  | nil => exact hwalk
  | cons name names ih =>
    rw [List.mem_cons, not_or] at hup
    rw [List.foldlM_cons] at hwalk ⊢
    obtain ⟨next, hpart, hwalk⟩ := bind_eq_ok_iff.mp hwalk
    have hlocation := FileTree.eq_append_of_foldlM_walkPart hup.2 hwalk
    have hnext : tree.walkPart base name = .ok next :=
      FileTree.walkPart_eq_ok_iff.mpr ⟨hbase, (FileTree.walkPart_eq_ok_iff.mp hpart).2⟩
    refine bind_eq_ok_iff.mpr ⟨next, hnext, ?_⟩
    by_cases hnames : names = []
    · rw [hnames] at hwalk ⊢
      exact hwalk
    · obtain ⟨node, hnode'⟩ := Option.ne_none_iff_exists'.mp hnode
      have habove : next <+: location := ⟨names, hlocation.symm⟩
      have hne : next ≠ location := fun heq => hnames (by simpa [heq] using hlocation)
      exact ih hup.2 (htree.directory_of_prefix hnode' habove hne) hwalk

/-- What a path leads straight down to, it leads to from the beginning. -/
theorem LeadsDown.locate (h : LeadsDown tree path) (htree : tree.WellFormed)
    (hkept : tree.KeptIn tree') (hlocate : tree'.locate path = .ok location)
    (hnode : tree.node? location ≠ none) : tree.locate path = .ok location := by
  obtain ⟨directory, names, rfl, hdirectory, hup⟩ := h
  obtain ⟨base, hbase, hbaseNode⟩ := isDirectory_iff.mp hdirectory
  have hbase' := (FileTree.locate_eq_ok_iff.mp (hkept.locate hbase)).2
  obtain ⟨hlength, hwalk⟩ := FileTree.locate_eq_ok_iff.mp hlocate
  refine FileTree.locate_eq_ok_iff.mpr ⟨hlength, ?_⟩
  rw [FileTree.walk, Path.within, List.foldlM_append] at hwalk ⊢
  obtain ⟨start, hstart, hwalk⟩ := bind_eq_ok_iff.mp hwalk
  obtain rfl := Except.ok.inj (hbase'.symm.trans hstart)
  refine bind_eq_ok_iff.mpr ⟨base, (FileTree.locate_eq_ok_iff.mp hbase).2, ?_⟩
  exact foldlM_walkPart_of_node htree hup hbaseNode hwalk hnode

/-! ### One write -/

theorem Writer.look_of_write_eq_ok {document : Json} {validate : Bool} {count : Nat} {direct : Bool}
    (hmode : outputInUse writer.output = .ok (.known .error, direct))
    (hrun : writer.write path document validate tree = .ok count tree') :
    tree.look path = .ok none := by
  rw [Writer.write, hmode] at hrun
  obtain ⟨_, _, hvacant, -⟩ := Files.Action.bind_eq_ok_iff.mp hrun
  rw [checkVacant, if_pos rfl, Files.Action.get_bind] at hvacant
  cases hlook : tree.look path with
  | error fault =>
    rw [hlook] at hvacant
    cases hvacant
  | ok found =>
    cases found with
    | none => rfl
    | some node =>
      rw [hlook] at hvacant
      cases hvacant

theorem node?_of_look_eq_none (hlook : tree.look path = .ok none) (hnull : path.hasNull = false)
    (hlocate : tree.locate path = .ok location) : tree.node? location = none := by
  by_contra hnode
  obtain ⟨node, hnode⟩ := Option.ne_none_iff_exists'.mp hnode
  rw [FileTree.look_eq_some_iff.mpr ⟨hnull, location, hlocate, hnode⟩] at hlook
  cases hlook

theorem WroteOnWay.node?_ne_none {middle : FileTree} {bytes : List UInt8} {other : Location}
    (h : WroteOnWay tree tree' path bytes middle location) (hother : tree.node? other ≠ none) :
    tree'.node? other ≠ none := by
  by_cases heq : other = location
  · rw [heq, h.wrote.node_eq]
    nofun
  · rw [h.sameBut other heq]
    rcases h.made.node other with hsame | ⟨-, hnone, -⟩
    · rwa [hsame]
    · exact absurd hnone hother

/-! ### A row of writes -/

/-- The documents have all been written, and each to a path that led to nothing before. Paths that
lead down lead to different places. -/
structure NewlyWritten (tree tree' : FileTree) (documents : List (Path × Json)) : Prop where
  allWritten : AllWritten tree tree' documents
  vacant : ∀ file ∈ documents, ∀ location, tree.locate file.1 = .ok location →
    tree.node? location = none
  distinct : documents.Pairwise fun file later =>
    tree'.locate later.1 = tree'.locate file.1 → later.1 ≠ file.1 ∧ ¬LeadsDown tree later.1

theorem newlyWritten_nil {places : Location → Prop} (hmade : MadeIn places tree tree') :
    NewlyWritten tree tree' [] where
  allWritten := (allWritten_nil hmade.wellFormed).of_made hmade.madeFrom
  vacant := List.forall_mem_nil _
  distinct := .nil

theorem NewlyWritten.cons {middle : FileTree} {file : Path × Json}
    (hlook : tree.look file.1 = .ok none) (hfault : documentFault? file.2 = none)
    (hnull : file.1.hasNull = false) (hbetween : between.WellFormed)
    (hwrote : WroteOnWay tree between file.1 (Text.Utf8.encode file.2.print) middle location)
    (h : NewlyWritten between tree' documents) : NewlyWritten tree tree' (file :: documents) := by
  have hkept : tree.KeptIn between := hwrote.made.madeFrom.keptIn.trans hwrote.wrote.keptIn
  have hfile : between.locate file.1 = .ok location := hwrote.wrote.locate_eq
  have hnode : between.node? location ≠ none := by rw [hwrote.wrote.node_eq]; nofun
  refine ⟨.cons hfault hnull (hwrote.wrote.of_made hwrote.made.madeFrom) h.allWritten, ?_, ?_⟩
  · refine List.forall_mem_cons.mpr ⟨fun _ => node?_of_look_eq_none hlook hnull, ?_⟩
    intro later hlater other hlocate
    by_contra hother
    exact hwrote.node?_ne_none hother (h.vacant later hlater other (hkept.locate hlocate))
  · refine List.pairwise_cons.mpr ⟨?_, ?_⟩
    · -- a later path to the file that has just been written would have been found occupied
      intro later hlater hsame
      rw [h.allWritten.keptIn.locate hfile] at hsame
      have hnever : between.locate later.1 ≠ .ok location :=
        fun hlocate => hnode (h.vacant later hlater location hlocate)
      constructor
      · intro heq
        rw [heq] at hnever
        exact hnever hfile
      · intro hdown
        exact hnever ((hdown.of_keptIn hkept).locate hbetween h.allWritten.keptIn hsame hnode)
    · apply h.distinct.imp
      intro first later hdistinct hsame
      exact (hdistinct hsame).imp_right fun hnot hdown => hnot (hdown.of_keptIn hkept)

theorem NewlyWritten.paths_ne (h : NewlyWritten tree tree' documents) :
    documents.Pairwise fun file later => later.1 ≠ file.1 := by
  apply h.distinct.imp
  intro file later hdistinct hpath
  exact (hdistinct (by rw [hpath])).1 hpath

/-- A row of writes that may stop has written the documents in front of the one it stops at. -/
theorem exists_newlyWritten {direct : Bool} (htree : tree.WellFormed)
    (hmode : outputInUse writer.output = .ok (.known .error, direct))
    (documents : List (Path × Json)) :
    ∃ done, done <+: documents ∧
      NewlyWritten tree ((writeAll writer documents).after tree) done ∧
      ∀ tree', writeAll writer documents tree = .ok ⟨⟩ tree' → done = documents := by
  induction documents generalizing tree with
  | nil =>
    exact ⟨[], List.nil_prefix, newlyWritten_nil (.refl htree fun _ => False), fun _ _ => rfl⟩
  | cons file documents ih =>
    cases hrun : writer.write file.1 file.2 true tree with
    | error fault tree' =>
      have hmade := (Writer.write_eq_error htree hrun).1
      rw [writeAll_cons, after_bind_of_eq_error hrun, Files.Action.bind_of_eq_error hrun]
      refine ⟨[], List.nil_prefix, newlyWritten_nil hmade, fun tree'' hok => ?_⟩
      cases hok
    | ok count between =>
      have hlook := Writer.look_of_write_eq_ok hmode hrun
      obtain ⟨-, hfault, hnull, middle, location, hwrote⟩ := Writer.write_eq_ok htree hrun
      -- the others are newly written from the tree that the first write leaves
      obtain ⟨done, hfirst, hdone, hall⟩ := ih hwrote.wrote.wellFormed
      rw [writeAll_cons, after_bind_of_eq_ok hrun, Files.Action.bind_of_eq_ok hrun]
      refine ⟨file :: done, (List.prefix_cons_inj file).mpr hfirst, ?_, fun tree' hok => ?_⟩
      · exact .cons hlook (hfault rfl) hnull hwrote.wrote.wellFormed hwrote hdone
      · rw [hall tree' hok]

/-! ### Paths of types -/

/-- The name of the file has double dots between its slashes. -/
def LeadsUp (convention : Convention) (type : Declaration) : Prop :=
  ".." ∈ (Path.ofText ((targetOf (kindOf type) type.name).fileName convention)).parts

theorem not_leadsUp_of_noSlash {type : Declaration} (hname : '/' ∉ type.name.toList)
    (convention : Convention) : ¬LeadsUp convention type := by
  obtain ⟨hpart, hup⟩ : Path.IsPart ((targetOf (kindOf type) type.name).fileName convention) ∧ _ :=
    isPart_fileName hname (kindOf type)
  rw [LeadsUp, hpart.ofText, List.mem_singleton]
  exact Ne.symm hup

theorem isDirectory_rootOf {text : String} (hroot : Path.rootOf text ≠ "") :
    tree.isDirectory ⟨Path.rootOf text, []⟩ = true := by
  revert hroot
  rw [Path.rootOf]
  split
  · exact fun _ => rfl
  · split
    · exact fun _ => rfl
    · exact fun hroot => absurd rfl hroot

theorem leadsDown_child {directory : Path} (hdirectory : tree.isDirectory directory = true)
    {text : String} (hup : ".." ∉ (Path.ofText text).parts) :
    LeadsDown tree (directory.child text) := by
  rw [Path.child, Path.join]
  by_cases habsolute : (Path.ofText text).isAbsolute = true
  · rw [if_pos habsolute]
    refine ⟨⟨Path.rootOf text, []⟩, _, rfl, isDirectory_rootOf fun hroot => ?_, hup⟩
    simp [Path.isAbsolute, Path.ofText, hroot] at habsolute
  · rw [if_neg habsolute]
    exact ⟨directory, _, rfl, hdirectory, hup⟩

def HasDirectories (tree : FileTree) (output : Path) : Prop :=
  tree.isDirectory output = true ∧
    ∀ kind, tree.isDirectory (output.child (directoryOf kind)) = true

/-- The path of a document leads down, or it is that of a type whose name leads up. -/
theorem leadsDown_or_leadsUp (hdirectories : HasDirectories tree output) {types : List Declaration}
    {file : Path × Json} (hfile : file ∈ filesOf used output types) :
    LeadsDown tree file.1 ∨ ∃ type ∈ types, LeadsUp used.convention type ∧
      file.1 = outputPath used.convention output (kindOf type) type.name := by
  rcases of_mem_filesOf hfile with ⟨kind, name, type, hlast, rfl⟩ | ⟨name, hname, hpath⟩
  · obtain ⟨htype, rfl, rfl⟩ := of_lastType?_eq_some hlast
    dsimp only
    by_cases hup : LeadsUp used.convention type
    · exact .inr ⟨type, htype, hup, rfl⟩
    · exact .inl (leadsDown_child (hdirectories.2 (kindOf type)) hup)
  · obtain ⟨hchild, hup⟩ := child_scaffold output hname
    rw [hpath]
    exact .inl ⟨output, [name], hchild, hdirectories.1, hup⟩

/-! ### Whole runs -/

theorem outputInUse_of_mode (hmode : settings.output = .given (.known .error) atomic)
    (hused : settings.inUse = .ok used) :
    outputInUse used.output = .ok (.known .error, atomic.isTruthy) := by
  obtain ⟨convention, -, hused⟩ := bind_eq_ok_iff.mp hused
  rw [hmode] at hused
  obtain rfl := Except.ok.inj hused
  rw [show (settings.withConvention convention).output = settings.output from rfl, hmode]
  rfl

/-- What a run in error mode has done, however it ended: it has made directories, and then written
the first of its documents. -/
structure Attempted (tree tree' : FileTree) (output : Path) (between : FileTree)
    (done : List (Path × Json)) : Prop where
  made : between.MadeFrom tree
  wellFormed : between.WellFormed
  directories : done ≠ [] → HasDirectories between output
  newlyWritten : NewlyWritten between tree' done

theorem attempted_nil {places : Location → Prop} (hmade : MadeIn places tree tree') :
    Attempted tree tree' output tree' [] :=
  ⟨hmade.madeFrom, hmade.wellFormed, fun hne => absurd rfl hne,
    newlyWritten_nil (.refl hmade.wellFormed fun _ => False)⟩

theorem exists_attempted_of_writeRun (htree : tree.WellFormed) {direct : Bool}
    (hmode : outputInUse writer.output = .ok (.known .error, direct)) (output : Path)
    (documents : List (Path × Json)) (run : Run) :
    ∃ between done, done <+: documents ∧
      Attempted tree ((writeRun output writer documents run).after tree) output between done ∧
      ∀ run' tree', writeRun output writer documents run tree = .ok run' tree' →
        done = documents := by
  cases hdirectories : createDirectories output tree with
  | error fault tree' =>
    have hmade := createDirectories_made htree output
    rw [after_of_eq_error hdirectories] at hmade
    rw [writeRun, after_bind_of_eq_error hdirectories, Files.Action.bind_of_eq_error hdirectories]
    refine ⟨tree', [], List.nil_prefix, attempted_nil hmade, fun run' tree'' hok => ?_⟩
    cases hok
  | ok _ between =>
    obtain ⟨hbetween, hwellFormed, houtput, hkinds⟩ := createDirectories_eq_ok htree hdirectories
    obtain ⟨done, hfirst, hdone, hall⟩ := exists_newlyWritten hwellFormed hmode documents
    rw [writeRun, after_bind_of_eq_ok hdirectories, after_bind_pure,
      Files.Action.bind_of_eq_ok hdirectories]
    refine ⟨between, done, hfirst,
      ⟨hbetween, hwellFormed, fun _ => ⟨houtput, hkinds⟩, hdone⟩, fun run' tree' hok => ?_⟩
    obtain ⟨_, tree'', hwrite, -⟩ := Files.Action.bind_eq_ok_iff.mp hok
    exact hall tree'' hwrite

/-- Where the row of writes has replaced a file, it went there by a path that leads up. -/
theorem Attempted.file_kept_or_leadsUp {done : List (Path × Json)} {types : List Declaration}
    (h : Attempted tree tree' output between done)
    (hdone : done ⊆ filesOf used output types) {bytes : List UInt8}
    (hfile : tree.node? location = some (.file bytes)) :
    tree'.node? location = some (.file bytes) ∨
      ∃ type ∈ types, LeadsUp used.convention type ∧
        tree.locate (outputPath used.convention output (kindOf type) type.name) ≠ .ok location ∧
        tree'.locate (outputPath used.convention output (kindOf type) type.name) =
          .ok location := by
  have hbetween : between.node? location = some (.file bytes) := by
    rcases h.made.node location with hsame | ⟨hnone, -⟩
    · rw [hsame, hfile]
    · rw [hfile] at hnone
      cases hnone
  -- the writes leave alone what none of the documents leads to
  by_cases hled : ∃ file ∈ done, tree'.locate file.1 = .ok location
  · obtain ⟨file, hmem, hlocate⟩ := hled
    have hnever : between.locate file.1 ≠ .ok location := by
      intro hthere
      have hvacant := h.newlyWritten.vacant file hmem location hthere
      rw [hbetween] at hvacant
      cases hvacant
    rcases leadsDown_or_leadsUp (h.directories (List.ne_nil_of_mem hmem)) (hdone hmem) with
      hdown | ⟨type, htype, hup, hpath⟩
    · refine absurd (hdown.locate h.wellFormed h.newlyWritten.allWritten.keptIn hlocate ?_) hnever
      rw [hbetween]
      nofun
    · rw [hpath] at hlocate hnever
      exact .inr ⟨type, htype, hup, fun hthere => hnever (h.made.keptIn.locate hthere), hlocate⟩
  · rcases h.newlyWritten.allWritten.others location (by simpa using hled) with hsame | ⟨hnone, -⟩
    · exact .inl (hsame.trans hbetween)
    · rw [hbetween] at hnone
      cases hnone

theorem Attempted.locates_ne {done : List (Path × Json)} {types : List Declaration}
    (h : Attempted tree tree' output between done)
    (hdone : done ⊆ filesOf used output types)
    (hdown : ∀ type ∈ types, ¬LeadsUp used.convention type) :
    done.Pairwise fun file later => tree'.locate later.1 ≠ tree'.locate file.1 := by
  refine h.newlyWritten.distinct.imp_of_mem fun {file later} _ hlater hdistinct hsame => ?_
  rcases leadsDown_or_leadsUp (h.directories (List.ne_nil_of_mem hlater)) (hdone hlater) with
    hlaterDown | ⟨type, htype, hup, -⟩
  · exact (hdistinct hsame).2 hlaterDown
  · exact hdown type htype hup

def KeepsFiles (tree tree' : FileTree) : Prop :=
  ∀ location bytes, tree.node? location = some (.file bytes) →
    tree'.node? location = some (.file bytes)

theorem exists_attempted (htree : tree.WellFormed)
    (hmode : settings.output = .given (.known .error) atomic) (hused : settings.inUse = .ok used)
    (hsources : discover used tree input = .ok sources) (stamp : String) (output : Path) :
    ∃ between done, done <+: filesOf used output (typesRead used.convention tree sources) ∧
      Attempted tree ((convertDirectory settings stamp input output).after tree) output between
        done ∧
      ∀ run tree', convertDirectory settings stamp input output tree = .ok run tree' →
        done = filesOf used output (typesRead used.convention tree sources) := by
  rcases convertDirectory_cases settings stamp input output tree with ⟨fault, hrun⟩ |
    ⟨used', sources', hused', hsources', hrun⟩
  · rw [after_of_eq_error hrun, hrun]
    refine ⟨tree, [], List.nil_prefix, attempted_nil (.refl htree fun _ => False), ?_⟩
    intro run tree' hok
    cases hok
  · obtain rfl := Except.ok.inj (hused.symm.trans hused')
    obtain rfl := Except.ok.inj (hsources.symm.trans hsources')
    rw [Action.after, hrun]
    exact exists_attempted_of_writeRun htree (outputInUse_of_mode hmode hused) output _ _

theorem file_kept_or_leadsUp (htree : tree.WellFormed)
    (hmode : settings.output = .given (.known .error) atomic) (stamp : String)
    (input output : Path) {bytes : List UInt8}
    (hfile : tree.node? location = some (.file bytes))
    (htree' : (convertDirectory settings stamp input output).after tree = tree') :
    tree'.node? location = some (.file bytes) ∨
      ∃ used sources, settings.inUse = .ok used ∧ discover used tree input = .ok sources ∧
        ∃ type ∈ typesRead used.convention tree sources, LeadsUp used.convention type ∧
          tree.locate (outputPath used.convention output (kindOf type) type.name) ≠
            .ok location ∧
          tree'.locate (outputPath used.convention output (kindOf type) type.name) =
            .ok location := by
  rcases convertDirectory_cases settings stamp input output tree with ⟨fault, hrun⟩ |
    ⟨used, sources, hused, hsources, -⟩
  · rw [← htree', after_of_eq_error hrun]
    exact .inl hfile
  · obtain ⟨between, done, hfirst, hattempted, -⟩ :=
      exists_attempted htree hmode hused hsources stamp output
    rw [htree'] at hattempted
    exact (hattempted.file_kept_or_leadsUp hfirst.subset hfile).imp_right
      fun hup => ⟨used, sources, hused, hsources, hup⟩

/-- **In error mode a file is replaced only by way of a name that leads up.** However the conversion
ends, a file that was there keeps what it held, unless the path of a type leads to it now that did
not lead to it before, by double dots in the name. The documents that have been written are the
first ones of the run, and all of them if it completes; they have different paths, and they lie in
different places if no name leads up. -/
theorem error_mode_keeps_files (htree : tree.WellFormed)
    (hmode : settings.output = .given (.known .error) atomic) (stamp : String)
    (input output : Path) :
    (∀ location bytes, tree.node? location = some (.file bytes) →
      ((convertDirectory settings stamp input output).after tree).node? location =
          some (.file bytes) ∨
        ∃ used sources, settings.inUse = .ok used ∧ discover used tree input = .ok sources ∧
          ∃ type ∈ typesRead used.convention tree sources, LeadsUp used.convention type ∧
            tree.locate (outputPath used.convention output (kindOf type) type.name) ≠
              .ok location ∧
            ((convertDirectory settings stamp input output).after tree).locate
              (outputPath used.convention output (kindOf type) type.name) = .ok location) ∧
    ((∀ used sources, settings.inUse = .ok used → discover used tree input = .ok sources →
        ∀ type ∈ typesRead used.convention tree sources, ¬LeadsUp used.convention type) →
      KeepsFiles tree ((convertDirectory settings stamp input output).after tree)) ∧
    (∀ convention type, '/' ∉ type.name.toList → ¬LeadsUp convention type) ∧
    ∀ used sources, settings.inUse = .ok used → discover used tree input = .ok sources →
      ∃ done, done <+: filesOf used output (typesRead used.convention tree sources) ∧
        (∀ run tree', convertDirectory settings stamp input output tree = .ok run tree' →
          done = filesOf used output (typesRead used.convention tree sources)) ∧
        AllWritten tree ((convertDirectory settings stamp input output).after tree) done ∧
        (done.Pairwise fun file later => later.1 ≠ file.1) ∧
        ((∀ type ∈ typesRead used.convention tree sources, ¬LeadsUp used.convention type) →
          done.Pairwise fun file later =>
            ((convertDirectory settings stamp input output).after tree).locate later.1 ≠
              ((convertDirectory settings stamp input output).after tree).locate file.1) := by
  refine ⟨fun location bytes hfile => file_kept_or_leadsUp htree hmode stamp input output hfile rfl,
    fun hdown location bytes hfile => ?_, fun convention type hname =>
      not_leadsUp_of_noSlash hname convention, ?_⟩
  · rcases file_kept_or_leadsUp htree hmode stamp input output hfile rfl with hkept |
      ⟨used, sources, hused, hsources, type, htype, hup, -⟩
    · exact hkept
    · exact absurd hup (hdown used sources hused hsources type htype)
  · intro used sources hused hsources
    obtain ⟨between, done, hfirst, h, hall⟩ :=
      exists_attempted htree hmode hused hsources stamp output
    exact ⟨done, hfirst, hall, h.newlyWritten.allWritten.of_made h.made,
      h.newlyWritten.paths_ne, h.locates_ne hfirst.subset⟩

def errorSettings : Settings := { twinSettings with output := .given (.known .error) (.bool true) }

/-- Two types with one path: the run stops in front of the second, and all files stay. -/
theorem error_mode_keeps_files_twin : twinTree.WellFormed ∧
    errorSettings.output = .given (.known .error) (.bool true) ∧
    KeepsFiles twinTree
      ((convertDirectory errorSettings "0" twinInput twinOutput).after twinTree) ∧
    ∀ run tree', convertDirectory errorSettings "0" twinInput twinOutput twinTree ≠
      .ok run tree' := by
  have hmode : errorSettings.output = .given (.known .error) (.bool true) := rfl
  obtain ⟨-, hkeeps, hplain, hwritten⟩ :=
    error_mode_keeps_files wellFormed_twinTree hmode "0" twinInput twinOutput
  have hdiscover : discover errorSettings twinTree twinInput = .ok [⟨"", ["in", "a.raml"]⟩] :=
    discover_twinTree
  have htypes : typesRead errorSettings.convention twinTree [⟨"", ["in", "a.raml"]⟩] =
      [{ name := "Foo" }, { name := "foo" }] := twin_evaluated.2.1
  refine ⟨wellFormed_twinTree, hmode, hkeeps ?_, ?_⟩
  · intro used sources hused hsources type htype
    obtain rfl : errorSettings = used := Except.ok.inj hused
    obtain rfl := Except.ok.inj (hdiscover.symm.trans hsources)
    rw [htypes] at htype
    refine hplain _ type ?_
    revert type
    decide
  · intro run tree' hrun
    obtain ⟨done, -, hall, -, hpaths, -⟩ := hwritten errorSettings _ rfl hdiscover
    have hfiles : filesOf errorSettings twinOutput [{ name := "Foo" }, { name := "foo" }] =
        [(outputPath .pascal twinOutput .object "Foo", document (.str "d") { name := "Foo" }),
          (outputPath .pascal twinOutput .object "foo", twinDocument)] := rfl
    rw [hall run tree' hrun, htypes, hfiles] at hpaths
    exact (List.pairwise_cons.mp hpaths).1 _ List.mem_cons_self (by decide +kernel)

/-! ### A name that leads back over a missing directory -/

/-- A library whose only type leads to a file beside it, by way of a directory that is missing. -/
def detourTree : FileTree where
  nodes := [(["e.schema.json"], .file [0x6D]), (["in"], .directory),
    (["in", "a.raml"], .file (Text.Utf8.encode "#%RAML 1.0 Library\ntypes:\n  x/../../../e:\n"))]

set_option maxRecDepth 100000 in
theorem detour_evaluated :
    (Files.Action.answer? (convertDirectory errorSettings "0" twinInput twinOutput)
        detourTree).map (fun (run, tree') => (run.objectNames,
          decide (tree'.node? ["e.schema.json"] = some (.file [0x6D])))) =
      some (["x/../../../e"], false) := by
  decide +kernel

/-- The run completes in error mode and has replaced the file. -/
theorem error_mode_replaces_file : ∃ run tree', detourTree.WellFormed ∧
    errorSettings.output = .given (.known .error) (.bool true) ∧
    convertDirectory errorSettings "0" twinInput twinOutput detourTree = .ok run tree' ∧
      ¬KeepsFiles detourTree tree' := by
  obtain ⟨run, tree', hrun, hresult⟩ := Files.Action.exists_of_map_answer?_eq_some detour_evaluated
  refine ⟨run, tree', FileTree.wellFormed_of_forall rfl (by decide), rfl, hrun, fun hkeeps => ?_⟩
  exact of_decide_eq_false (Prod.mk.inj hresult).2 (hkeeps _ _ rfl)

end RamlSchema.Conversion
