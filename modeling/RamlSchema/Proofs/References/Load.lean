import Mathlib.Data.List.Lex
import Mathlib.Data.String.Basic
import RamlSchema.Proofs.Files.Outcomes
import RamlSchema.Proofs.References.Paths
import RamlSchema.References.Load
import RamlSchema.Schema.Document

/-!
# What is loaded from a directory

The schemas of a directory stand in the order of the paths that lead to them from there, and so the
first schema with a name is found by comparing paths. A file that is named for a schema gives it
four names: the bare one, the same with a part of the ending, and either of these two as a path.
-/

namespace RamlSchema

open Files (FileTree Location Node Path)

theorem Files.FileTree.mem_nodesBelow_iff {tree : FileTree} {location : Location}
    {rest : List String} {node : Node} :
    (rest, node) ∈ tree.nodesBelow location ↔
      rest ≠ [] ∧ (location ++ rest, node) ∈ tree.nodes := by
  rw [FileTree.nodesBelow, List.mem_filterMap]
  constructor
  · rintro ⟨⟨found, other⟩, hentry, hrest⟩
    simp only at hrest
    split at hrest
    · cases hrest
    · cases hrest
    · rename_i names hnames hleads
      obtain ⟨rfl, rfl⟩ := Prod.mk.inj (Option.some.inj hrest)
      rw [List.isPrefixOf?_eq_some_iff_append_eq.mp hleads]
      exact ⟨hnames, hentry⟩
  · rintro ⟨hrest, hentry⟩
    refine ⟨(location ++ rest, node), hentry, ?_⟩
    have hleads : location.isPrefixOf? (location ++ rest) = some rest :=
      List.isPrefixOf?_eq_some_iff_append_eq.mpr rfl
    cases rest with
    | nil => exact absurd rfl hrest
    | cons name names => simp only [hleads]

namespace References

variable {tree : FileTree} {root : Path} {location : Location} {rest directory : List String}
  {stem key : String} {node : Node} {document : Json} {schema : LoadedSchema}
  {loaded : List LoadedSchema}

/-! ### The schemas in order -/

theorem loadNode_eq_some_iff :
    loadNode root rest node = .ok (some schema) ↔
      ∃ bytes document, node = .file bytes ∧
        Text.endsWith (rest.getLast?.getD "") jsonEnding = true ∧
        (root.within rest).isTooLong = false ∧ documentOfBytes? bytes = some document ∧
        schema = .ofDocument root rest document := by
  constructor
  · intro hload
    unfold loadNode at hload
    split at hload
    case h_1 => cases hload
    case h_2 bytes =>
      split at hload
      case isTrue => cases hload
      case isFalse hends =>
        split at hload
        case isTrue => cases hload
        case isFalse hlong =>
          obtain ⟨document, hdocument, rfl⟩ := Option.map_eq_some_iff.mp (Except.ok.inj hload)
          exact ⟨bytes, document, rfl, by simpa using hends, by simpa using hlong, hdocument, rfl⟩
  · rintro ⟨bytes, document, rfl, hends, hlong, hdocument, rfl⟩
    simp [loadNode, hends, hlong, hdocument]

/-- The schema that an entry below a directory is loaded as, with the path that leads to it. -/
def loadedAt? (root : Path) (entry : List String × Node) : Option (List String × LoadedSchema) :=
  match loadNode root entry.1 entry.2 with
  | .ok (some schema) => some (entry.1, schema)
  | _ => none

theorem loadedAt?_eq_some_iff {entry : List String × Node} :
    loadedAt? root entry = some (rest, schema) ↔
      entry.1 = rest ∧ loadNode root rest entry.2 = .ok (some schema) := by
  rw [loadedAt?]
  split
  case h_1 found hfound =>
    rw [Option.some.injEq, Prod.mk.injEq]
    refine and_congr_right fun hrest => ?_
    rw [← hrest, hfound, Except.ok.injEq, Option.some.injEq]
  case h_2 hnone =>
    refine iff_of_false nofun ?_
    rintro ⟨rfl, hschema⟩
    exact hnone schema hschema

/-- What is loaded from some nodes, in their order. -/
theorem eq_map_snd_of_mapM {nodes : List (List String × Node)} {found : List (Option LoadedSchema)}
    (hfound : (nodes.mapM fun (rest, node) => loadNode root rest node) = .ok found) :
    found.filterMap id = (nodes.filterMap (loadedAt? root)).map Prod.snd := by
  have hnodes := map_eq_of_mapM_eq_ok hfound
  have hread : ∀ entry : List String × Node, (loadedAt? root entry).map Prod.snd =
      (loadNode root entry.1 entry.2).toOption.join := by
    intro entry
    rw [loadedAt?]
    rcases loadNode root entry.1 entry.2 with fault | (_ | schema) <;> rfl
  calc found.filterMap id
      = (found.map .ok : List (Except Files.Fault (Option LoadedSchema))).filterMap
          (fun result => result.toOption.join) := by
        rw [List.filterMap_map]
        exact List.filterMap_congr fun schema? _ => by cases schema? <;> rfl
    _ = nodes.filterMap fun entry => (loadNode root entry.1 entry.2).toOption.join := by
        rw [← hnodes, List.filterMap_map]
        rfl
    _ = (nodes.filterMap (loadedAt? root)).map Prod.snd := by
        rw [List.map_filterMap]
        exact List.filterMap_congr fun entry _ => (hread entry).symm

/-- The schemas of a directory with the paths that lead to them from there, in their order. -/
def listing (tree : FileTree) (root : Path) (location : Location) :
    List (List String × LoadedSchema) :=
  ((tree.nodesBelow location).mergeSort fun a b => !(b.1 < a.1)).filterMap (loadedAt? root)

theorem mem_listing_iff :
    (rest, schema) ∈ listing tree root location ↔ ∃ node,
      (rest, node) ∈ tree.nodesBelow location ∧ loadNode root rest node = .ok (some schema) := by
  rw [listing, List.mem_filterMap]
  simp only [List.mem_mergeSort, loadedAt?_eq_some_iff]
  constructor
  · rintro ⟨⟨found, node⟩, hentry, rfl, hload⟩
    exact ⟨node, hentry, hload⟩
  · rintro ⟨node, hentry, hload⟩
    exact ⟨(rest, node), hentry, rfl, hload⟩

/-- What holds between the paths of two nodes in order holds between those of two schemas. -/
theorem pairwise_listing_of {R : List String → List String → Prop}
    (hnodes : ((tree.nodesBelow location).mergeSort fun a b => !(b.1 < a.1)).Pairwise
      fun first later => R first.1 later.1) :
    (listing tree root location).Pairwise fun first later => R first.1 later.1 := by
  refine hnodes.filterMap _ fun first later hR (rest, schema) hfirst (rest', schema') hlater => ?_
  rw [loadedAt?_eq_some_iff] at hfirst hlater
  simpa [← hfirst.1, ← hlater.1] using hR

theorem pairwise_listing (tree : FileTree) (root : Path) (location : Location) :
    (listing tree root location).Pairwise fun first later => ¬later.1 < first.1 := by
  have htrans : ∀ a b c : List String × Node, (!decide (b.1 < a.1)) = true →
      (!decide (c.1 < b.1)) = true → (!decide (c.1 < a.1)) = true := by
    intro a b c hab hbc
    simp only [Bool.not_eq_true', decide_eq_false_iff_not, not_lt] at hab hbc ⊢
    exact hab.trans hbc
  have htotal : ∀ a b : List String × Node,
      ((!decide (b.1 < a.1)) || !decide (a.1 < b.1)) = true := by
    intro a b
    simp only [Bool.or_eq_true, Bool.not_eq_true', decide_eq_false_iff_not, not_lt]
    exact le_total _ _
  have hsorted := List.pairwise_mergeSort htrans htotal (tree.nodesBelow location)
  exact pairwise_listing_of (R := fun first later => ¬later < first)
    (hsorted.imp fun hle => by simpa using hle)

theorem id_of_mem_listing (hentry : (rest, schema) ∈ listing tree root location) :
    schema.id = schemaId (root.within rest).text := by
  obtain ⟨node, -, hload⟩ := mem_listing_iff.mp hentry
  obtain ⟨-, -, -, -, -, -, rfl⟩ := loadNode_eq_some_iff.mp hload
  rfl

/-- Identifiers are distinct unless they make different paths one. -/
theorem nodup_ids_listing (hnodup : ((tree.nodesBelow location).map Prod.fst).Nodup)
    (hpaths : ∀ first ∈ (tree.nodesBelow location).map Prod.fst,
      ∀ other ∈ (tree.nodesBelow location).map Prod.fst,
        schemaId (root.within first).text = schemaId (root.within other).text → first = other) :
    (((listing tree root location).map Prod.snd).map (·.id)).Nodup := by
  have hmem : ∀ entry ∈ listing tree root location,
      entry.1 ∈ (tree.nodesBelow location).map Prod.fst := by
    intro entry hentry
    obtain ⟨node, hnode, -⟩ := mem_listing_iff.mp hentry
    exact List.mem_map.mpr ⟨_, hnode, rfl⟩
  have hne : (listing tree root location).Pairwise fun first later => first.1 ≠ later.1 := by
    refine pairwise_listing_of (List.pairwise_map.mp ?_)
    exact (((tree.nodesBelow location).mergeSort_perm _).map Prod.fst).nodup_iff.mpr hnodup
  rw [List.map_map]
  refine List.pairwise_map.mpr (hne.imp_of_mem fun hfirst hlater hne hid => hne ?_)
  refine hpaths _ (hmem _ hfirst) _ (hmem _ hlater) ?_
  rw [← id_of_mem_listing hfirst, ← id_of_mem_listing hlater]
  exact hid

theorem below_eq_ok_iff (hlook : tree.look root = .ok (some .directory))
    (hlocate : tree.locate root = .ok location) {nodes : List (List String × Node)} :
    tree.below root = .ok nodes ↔
      nodes = (tree.nodesBelow location).mergeSort (fun a b => !(b.1 < a.1)) ∧
        FileTree.firstTooDeep? root nodes = none := by
  unfold FileTree.below
  simp only [hlook, hlocate, bind, Except.bind]
  split
  case h_1 inner hdeep =>
    refine iff_of_false nofun ?_
    rintro ⟨rfl, hnone⟩
    rw [hdeep] at hnone
    cases hnone
  case h_2 hnone =>
    rw [Except.ok.injEq, eq_comm, iff_self_and]
    rintro rfl
    exact hnone

theorem eq_listing_of_load (hlook : tree.look root = .ok (some .directory))
    (hlocate : tree.locate root = .ok location) (hload : load tree root = .ok loaded) :
    loaded = (listing tree root location).map Prod.snd := by
  obtain ⟨nodes, hbelow, hload⟩ := bind_eq_ok_iff.mp hload
  obtain ⟨found, hfound, hload⟩ := bind_eq_ok_iff.mp hload
  obtain rfl := Except.ok.inj hload
  obtain ⟨rfl, -⟩ := (below_eq_ok_iff hlook hlocate).mp hbelow
  exact eq_map_snd_of_mapM hfound

/-- Where no path is too long, nothing stops the loading. -/
theorem exists_load (hlook : tree.look root = .ok (some .directory))
    (hlocate : tree.locate root = .ok location)
    (hshort : ∀ rest ∈ (tree.nodesBelow location).map Prod.fst,
      (root.within rest).isTooLong = false) :
    ∃ loaded, load tree root = .ok loaded := by
  set nodes := (tree.nodesBelow location).mergeSort fun a b => !(b.1 < a.1) with hnodes
  have hrest : ∀ entry ∈ nodes, (root.within entry.1).isTooLong = false := fun entry hentry =>
    hshort _ (List.mem_map_of_mem (List.mem_mergeSort.mp hentry))
  have hdeep : FileTree.firstTooDeep? root nodes = none := by
    rw [FileTree.firstTooDeep?, List.findSome?_eq_none_iff]
    intro entry hentry
    exact if_neg (by rw [hrest entry (List.mem_of_mem_filter hentry)]; exact Bool.false_ne_true)
  have hloads : ∀ entry ∈ nodes, ∃ schema?, loadNode root entry.1 entry.2 = .ok schema? := by
    rintro ⟨rest, node⟩ hentry
    cases node with
    | directory => exact ⟨none, rfl⟩
    | file bytes =>
      simp only [loadNode, hrest _ hentry]
      split
      · exact ⟨none, rfl⟩
      · exact ⟨_, rfl⟩
  obtain ⟨found, hfound⟩ := exists_mapM_eq_ok hloads
  refine ⟨found.filterMap id, ?_⟩
  have hbelow := (below_eq_ok_iff hlook hlocate).mpr ⟨hnodes, hdeep⟩
  exact bind_eq_ok_iff.mpr ⟨nodes, hbelow, bind_eq_ok_iff.mpr ⟨found, hfound, rfl⟩⟩

/-- A schema is the first with a name if no other one has it at a path that is not behind. -/
theorem firstWith?_listing (hentry : (rest, schema) ∈ listing tree root location)
    (hkey : key ∈ schema.keys)
    (hothers : ∀ rest' other, (rest', other) ∈ listing tree root location → ¬rest < rest' →
      key ∈ other.keys → other = schema) :
    firstWith? ((listing tree root location).map Prod.snd) key = some schema := by
  have hordered := pairwise_listing tree root location
  set entries := listing tree root location
  have hsome : (entries.find? fun entry => entry.2.keys.contains key).isSome = true := by
    rw [List.find?_isSome]
    exact ⟨_, hentry, by simpa using hkey⟩
  obtain ⟨⟨rest', first⟩, hfind⟩ := Option.isSome_iff_exists.mp hsome
  obtain ⟨hfirst, before, after, hsplit, hbefore⟩ := List.find?_eq_some_iff_append.mp hfind
  have hmem : (rest', first) ∈ entries := by simp [hsplit]
  have hbehind : ¬rest < rest' := by
    rw [hsplit, List.pairwise_append, List.pairwise_cons] at hordered
    rw [hsplit, List.mem_append, List.mem_cons] at hentry
    rcases hentry with hin | heq | hin
    · exact absurd hkey (by simpa using hbefore _ hin)
    · rw [(Prod.mk.inj heq).1]
      exact lt_irrefl _
    · exact hordered.2.1.1 _ hin
  have hsame : first = schema := hothers rest' first hmem hbehind (by simpa using hfirst)
  rw [firstWith?, List.find?_map, ← hsame]
  exact congrArg (Option.map Prod.snd) hfind

/-! ### The names of a file -/

/-- The text of a path through some directories, up to where the name of the file stands. -/
def leadOf (directory : List String) : String := .join (directory.map (· ++ "/"))

theorem joinWith_concat (directory : List String) (file : String) :
    Text.joinWith "/" (directory ++ [file]) = leadOf directory ++ file := by
  rw [Text.joinWith]
  induction directory with
  | nil => simp [leadOf]
  | cons name directory ih =>
    have hlead : leadOf (name :: directory) = name ++ "/" ++ leadOf directory := by simp [leadOf]
    rw [List.cons_append, String.intercalate_cons_of_ne_nil (by simp), ih, hlead]
    simp only [String.append_assoc]

theorem text_concat (directory : List String) (file : String) :
    ({ root := "", parts := directory ++ [file] } : Path).text = leadOf directory ++ file := by
  change (Path.within ⟨"", directory⟩ [file]).text = _
  rw [Path.text_within (List.cons_ne_nil file []), joinWith_concat, String.empty_append]

theorem relativePath_ofDocument (root : Path) (directory : List String) (file : String)
    (document : Json) :
    (LoadedSchema.ofDocument root (directory ++ [file]) document).relativePath =
      leadOf directory ++ file := text_concat directory file

theorem afterLast_leadOf_append {file : String} (hfile : '/' ∉ file.toList) :
    Text.afterLast (leadOf directory ++ file) '/' = file := by
  rcases List.eq_nil_or_concat' directory with rfl | ⟨directory, name, rfl⟩
  · simpa [leadOf] using Text.afterLast_eq_self hfile
  · have hlead : leadOf (directory ++ [name]) ++ file =
        .ofList ((leadOf directory ++ name).toList ++ '/' :: file.toList) := by
      simp [leadOf, ← String.toList_inj]
    rw [hlead, Text.afterLast_append hfile]

section NamedFile

variable (hstem : '/' ∉ stem.toList)
include hstem

theorem slash_notMem_fileName : '/' ∉ (stem ++ schemaEnding).toList := by
  rw [String.toList_append, List.mem_append, not_or]
  exact ⟨hstem, by decide⟩

theorem mem_keys_ofDocument_iff :
    key ∈ (LoadedSchema.ofDocument root (directory ++ [stem ++ schemaEnding]) document).keys ↔
      key ≠ "" ∧ (key = stem ∨ key = stem ++ ".schema" ∨ key = leadOf directory ++ stem ∨
        key = leadOf directory ++ (stem ++ schemaEnding)) := by
  have hpath := relativePath_ofDocument root directory (stem ++ schemaEnding) document
  have hending : stem ++ schemaEnding = stem ++ ".schema" ++ jsonEnding := by
    have hparts : schemaEnding = ".schema" ++ jsonEnding := by decide
    rw [hparts, String.append_assoc]
  have hname : (LoadedSchema.ofDocument root (directory ++ [stem ++ schemaEnding])
      document).name = stem ++ ".schema" := by
    simp [LoadedSchema.ofDocument, Path.name, hending, Text.stripSuffix_append]
  have hbase : Text.afterLast (leadOf directory ++ (stem ++ schemaEnding)) '/' =
      stem ++ schemaEnding := afterLast_leadOf_append (slash_notMem_fileName hstem)
  have hbare : Text.stripSuffix (stem ++ schemaEnding) jsonEnding = stem ++ ".schema" := by
    rw [hending, Text.stripSuffix_append]
  have hshort : Text.stripSuffix (leadOf directory ++ (stem ++ schemaEnding)) schemaEnding =
      leadOf directory ++ stem := by
    rw [← String.append_assoc, Text.stripSuffix_append]
  rw [mem_keys_iff, hpath, hname, hbase, hbare, hshort, Text.stripSuffix_append,
    Text.stripSuffix_append]
  refine and_congr_right fun _ => ⟨?_, ?_⟩
  · rintro (h | h | h | h | h | h)
    exacts [.inr (.inl h), .inr (.inr (.inr h)), .inr (.inl h), .inl h, .inr (.inr (.inl h)),
      .inl h]
  · rintro (h | h | h | h)
    exacts [.inr (.inr (.inr (.inl h))), .inl h, .inr (.inr (.inr (.inr (.inl h)))), .inr (.inl h)]

theorem fileStem_append_ending :
    fileStem (leadOf directory ++ (stem ++ schemaEnding)) = stem := by
  rw [fileStem, afterLast_leadOf_append (slash_notMem_fileName hstem), Text.dropSuffix?_append]
  rfl

/-- A reference to a file declares the bare name of the file. -/
theorem declaredName_append_ending (hdirectory : '#' ∉ (leadOf directory).toList)
    (hhash : '#' ∉ stem.toList) :
    declaredName ("./" ++ (leadOf directory ++ (stem ++ schemaEnding))) = stem := by
  have hending : '#' ∉ schemaEnding.toList := by decide
  rw [declaredName_eq_fileStem, fileStem_append, fileStem_append_ending hstem]
  simp [hdirectory, hhash, hending]

/-- Only the bare name of a file is plain. -/
theorem eq_stem_of_mem_keys (hslash : '/' ∉ key.toList) (hdot : '.' ∉ key.toList)
    (hkey : key ∈
      (LoadedSchema.ofDocument root (directory ++ [stem ++ schemaEnding]) document).keys) :
    key = stem := by
  obtain ⟨-, rfl | rfl | rfl | rfl⟩ := (mem_keys_ofDocument_iff hstem).mp hkey
  · rfl
  · exact absurd hdot (by simp)
  · rcases List.eq_nil_or_concat' directory with rfl | ⟨directory, name, rfl⟩
    · simp [leadOf]
    · exact absurd hslash (by simp [leadOf])
  · exact absurd hdot (by simp [schemaEnding])

/-- A file goes by the path to it up to its name only if it has none. -/
theorem stem_eq_empty_of_mem_keys (hdirectory : directory ≠ [])
    (hkey : leadOf directory ∈
      (LoadedSchema.ofDocument root (directory ++ [stem ++ schemaEnding]) document).keys) :
    stem = "" := by
  obtain ⟨parts, hlead⟩ : ∃ parts, (leadOf directory).toList = parts ++ ['/'] := by
    obtain ⟨directory, name, rfl⟩ := (List.eq_nil_or_concat' directory).resolve_left hdirectory
    exact ⟨(leadOf directory ++ name).toList, by simp [leadOf]⟩
  obtain ⟨-, heq | heq | heq | heq⟩ := (mem_keys_ofDocument_iff hstem).mp hkey
  · rw [← heq, hlead] at hstem
    simp at hstem
  · have hlast := congrArg (fun text => text.toList.getLast?) heq
    simp [hlead] at hlast
  · have hlength := congrArg (fun text => text.toList.length) heq
    simpa using hlength
  · have hlength := congrArg (fun text => text.toList.length) heq
    simp [schemaEnding] at hlength

end NamedFile

/-! ### References in a document -/

theorem extractMembers_eq_flatMap (members : List (String × Json)) :
    extractMembers members = members.flatMap fun member => extract member.2 := by
  induction members with
  | nil => rfl
  | cons member members ih => rw [extractMembers, ih, List.flatMap_cons]

theorem extractItems_eq_flatMap (items : List Json) :
    extractItems items = items.flatMap extract := by
  induction items with
  | nil => rfl
  | cons item items ih => rw [extractItems, ih, List.flatMap_cons]

theorem mem_extract_obj {members : List (String × Json)} {name text : String} {value : Json}
    (hmember : (name, value) ∈ members) (htext : text ∈ extract value) :
    text ∈ extract (.obj members) := by
  rw [extract, extractMembers_eq_flatMap]
  exact List.mem_append_right _ (List.mem_flatMap.mpr ⟨(name, value), hmember, htext⟩)

theorem mem_extract_arr {items : List Json} {text : String} {item : Json} (hitem : item ∈ items)
    (htext : text ∈ extract item) : text ∈ extract (.arr items) := by
  rw [extract, extractItems_eq_flatMap]
  exact List.mem_flatMap.mpr ⟨item, hitem, htext⟩

theorem mem_extract_referenceJson (text : String) : text ∈ extract (Schema.referenceJson text) := by
  rw [Schema.referenceJson, extract]
  exact List.mem_append_left _ List.mem_cons_self

end References

end RamlSchema
