import RamlSchema.Conversion.Directory
import RamlSchema.Proofs.Files.Tree
import RamlSchema.Proofs.Naming
import RamlSchema.Proofs.Text.Trim
import RamlSchema.References.Schema

/-!
# Where output files lie

A type whose name has no slash is written straight into the directory of its kind, below the place
that the output path leads to. Two such files lie in one place only if they have one kind and one
file name.
-/

namespace RamlSchema

open Files (FileTree Location Path)
open Raml (Target)
open References (schemaEnding)
open Report (Kind)

variable {convention : Convention} {output : Path} {name : String} {kind : Kind}

/-! ### Plain names -/

/-- A text that is a single part of a path. -/
structure Files.Path.IsPart (text : String) : Prop where
  slash_notMem : '/' ∉ text.toList
  ne_empty : text ≠ ""
  ne_dot : text ≠ "."

theorem Files.Path.isPart_of_mem_ofText {text part : String}
    (hpart : part ∈ (Path.ofText text).parts) : Path.IsPart part := by
  rw [Path.ofText, List.mem_filter, Text.fields, List.mem_map] at hpart
  obtain ⟨⟨cs, hcs, rfl⟩, hplain⟩ := hpart
  rw [Bool.and_eq_true, bne_iff_ne, bne_iff_ne] at hplain
  refine ⟨?_, hplain.1, hplain.2⟩
  rw [String.toList_ofList]
  exact Text.notMem_of_mem_splitOn hcs

theorem Files.Path.rootOf_eq_empty {text : String} (htext : text.toList.head? ≠ some '/') :
    Path.rootOf text = "" := by
  have hsingle : Text.startsWith text "/" = false :=
    Text.startsWith_eq_false_of_head (by decide) htext
  have hdouble : Text.startsWith text "//" = false :=
    Text.startsWith_eq_false_of_head (by decide) htext
  rw [Path.rootOf, hdouble, hsingle]
  rfl

theorem Files.Path.IsPart.fields {text : String} (h : Path.IsPart text) :
    Text.fields text '/' = [text] := by
  rw [Text.fields, List.splitOn_eq_singleton h.slash_notMem, List.map_singleton,
    String.ofList_toList]

theorem Files.Path.IsPart.ofText {text : String} (h : Path.IsPart text) :
    Path.ofText text = ⟨"", [text]⟩ := by
  have hroot : Path.rootOf text = "" :=
    Path.rootOf_eq_empty fun hhead => h.slash_notMem (List.mem_of_mem_head? hhead)
  rw [Path.ofText, hroot, h.fields]
  simp [h.ne_empty, h.ne_dot]

theorem Files.Path.IsPart.ofText_append {text : String} (h : Path.IsPart text) {lead : String}
    (hne : lead ≠ "") (hlead : lead.toList.head? ≠ some '/') :
    Path.ofText (lead ++ "/" ++ text) = ⟨"", (Path.ofText lead).parts ++ [text]⟩ := by
  have hfields : Text.fields (lead ++ "/" ++ text) '/' = Text.fields lead '/' ++ [text] := by
    rw [← h.fields, Text.fields, Text.fields, Text.fields, ← List.map_append, String.toList_append,
      String.toList_append]
    have hslash : ('/' == '/') = true := rfl
    have hsplit := List.splitOnP_append_cons (p := (· == '/')) lead.toList text.toList hslash
    simpa [List.splitOn] using congrArg (List.map String.ofList) hsplit
  have hroot : Path.rootOf (lead ++ "/" ++ text) = "" := by
    refine Path.rootOf_eq_empty ?_
    rw [String.toList_append, String.toList_append, List.append_assoc,
      List.head?_append_of_ne_nil _ (by simpa using hne)]
    exact hlead
  rw [Path.ofText, hroot, hfields, List.filter_append, Path.ofText]
  simp [h.ne_empty, h.ne_dot]

theorem Files.Path.IsPart.child {text : String} (h : Path.IsPart text) (path : Path) :
    path.child text = path.within [text] := by
  rw [Path.child, h.ofText]
  rfl

/-- A name of more than two characters with no slash is a plain part of a path. -/
theorem Files.Path.isPart_of_length {text : String} (hslash : '/' ∉ text.toList)
    (hlength : 2 < text.toList.length) : Path.IsPart text ∧ text ≠ ".." := by
  refine ⟨⟨hslash, ?_, ?_⟩, ?_⟩ <;> rintro rfl <;> exact absurd hlength (by decide)

namespace Conversion

/-! ### Output paths -/

def stemOf (convention : Convention) (kind : Kind) (name : String) : String :=
  match kind with
  | .enum => convention.apply name ++ "Enum"
  | .object => convention.apply name

theorem fileName_eq_stemOf_append (convention : Convention) (kind : Kind) (name : String) :
    (targetOf kind name).fileName convention = stemOf convention kind name ++ schemaEnding := by
  cases kind with
  | enum =>
    have hending : Target.enumEnding = "Enum" ++ schemaEnding := by decide
    rw [targetOf, Target.fileName, Target.fileNameBy, hending, stemOf, String.append_assoc]
  | object => rfl

theorem isPart_fileName (hname : '/' ∉ name.toList) (kind : Kind) :
    Path.IsPart ((targetOf kind name).fileName convention) ∧
      (targetOf kind name).fileName convention ≠ ".." := by
  have happly := Naming.slash_notMem_apply convention hname
  refine Path.isPart_of_length ?_ ?_ <;> cases kind <;>
    simp [targetOf, Target.fileName, Target.fileNameBy, Target.enumEnding, Target.objectEnding,
      happly]

def directoryParts : Kind → List String
  | .enum => ["common", "enums"]
  | .object => ["business-objects"]

theorem child_directoryOf (output : Path) (kind : Kind) :
    output.child (directoryOf kind) = output.within (directoryParts kind) := by
  have hofText : Path.ofText (directoryOf kind) = ⟨"", directoryParts kind⟩ := by
    cases kind <;> decide
  rw [Path.child, hofText]
  rfl

theorem outputPath_eq_within (hname : '/' ∉ name.toList) (kind : Kind) :
    outputPath convention output kind name =
      output.within (directoryParts kind ++ [(targetOf kind name).fileName convention]) := by
  rw [outputPath, child_directoryOf, (isPart_fileName hname kind).1.child]
  simp [Path.within]

/-- A type with a plain name is written to a file of the name that belongs to it. -/
theorem name_outputPath (output : Path) (hslash : '/' ∉ name.toList) :
    (outputPath convention output kind name).name =
      stemOf convention kind name ++ schemaEnding := by
  rw [outputPath_eq_within hslash, Path.name, Path.within, ← List.append_assoc,
    List.getLast?_concat, Option.getD_some, fileName_eq_stemOf_append]

theorem child_enum_reference (hname : '/' ∉ name.toList) :
    output.child (Target.enumDirectory ++ (Target.enum name).fileName convention) =
      outputPath convention output .enum name := by
  have hlead : Target.enumDirectory = "./common/enums" ++ "/" := rfl
  have hpart : Path.IsPart ((Target.enum name).fileName convention) :=
    (isPart_fileName hname .enum).1
  rw [outputPath_eq_within hname, hlead, Path.child, hpart.ofText_append (by decide) (by decide)]
  have hparts : (Path.ofText "./common/enums").parts = directoryParts .enum := by decide
  rw [hparts]
  rfl

theorem child_object_reference (hname : '/' ∉ name.toList) :
    (output.child (directoryOf .object)).child ("./" ++ (Target.object name).fileName convention) =
      outputPath convention output .object name := by
  have hlead : "./" = "." ++ "/" := rfl
  have hpart : Path.IsPart ((Target.object name).fileName convention) :=
    (isPart_fileName hname .object).1
  rw [outputPath_eq_within hname, hlead, child_directoryOf, Path.child,
    hpart.ofText_append (by decide) (by decide)]
  have hparts : (Path.ofText ".").parts = [] := by decide
  rw [hparts]
  simp [Path.join, Path.isAbsolute, Path.within, targetOf]

/-! ### Locations -/

theorem up_notMem_outputParts (hname : '/' ∉ name.toList) (kind : Kind) :
    ".." ∉ directoryParts kind ++ [(targetOf kind name).fileName convention] := by
  have hfile : (targetOf kind name).fileName convention ≠ ".." := (isPart_fileName hname kind).2
  cases kind <;> simp [directoryParts, Ne.symm hfile]

theorem exists_walk_of_locate_outputPath {tree : FileTree} {location : Location}
    (hname : '/' ∉ name.toList)
    (hlocate : tree.locate (outputPath convention output kind name) = .ok location) :
    ∃ base, tree.walk output = .ok base ∧
      location = base ++ (directoryParts kind ++ [(targetOf kind name).fileName convention]) := by
  rw [outputPath_eq_within hname] at hlocate
  exact FileTree.exists_walk_of_locate_within (up_notMem_outputParts hname kind) hlocate

/-- Files of types with plain names lie in one place only if they have one kind and one name. -/
theorem eq_of_locate_outputPath_eq {tree : FileTree} {kind' : Kind} {name' : String}
    {location : Location} (hname : '/' ∉ name.toList) (hname' : '/' ∉ name'.toList)
    (hlocate : tree.locate (outputPath convention output kind name) = .ok location)
    (hlocate' : tree.locate (outputPath convention output kind' name') = .ok location) :
    kind = kind' ∧
      (targetOf kind name).fileName convention = (targetOf kind' name').fileName convention := by
  obtain ⟨base, hbase, hlocation⟩ := exists_walk_of_locate_outputPath hname hlocate
  obtain ⟨base', hbase', hlocation'⟩ := exists_walk_of_locate_outputPath hname' hlocate'
  rw [hbase] at hbase'
  obtain rfl := Except.ok.inj hbase'
  have hparts := List.append_cancel_left (hlocation.symm.trans hlocation')
  cases kind <;> cases kind' <;> simp_all [directoryParts]

def scaffoldNames : List String :=
  [Schema.messageFile, Schema.metadataFile, Schema.aggregatorFile]

theorem child_scaffold (output : Path) {file : String} (hfile : file ∈ scaffoldNames) :
    output.child file = output.within [file] ∧ ".." ∉ [file] := by
  have hall : ∀ file ∈ scaffoldNames, '/' ∉ file.toList ∧ 2 < file.toList.length := by decide
  obtain ⟨hpart, hup⟩ := Path.isPart_of_length (hall file hfile).1 (hall file hfile).2
  exact ⟨hpart.child output, by simpa using Ne.symm hup⟩

theorem exists_walk_of_locate_scaffold {tree : FileTree} {location : Location} {file : String}
    (hfile : file ∈ scaffoldNames) (hlocate : tree.locate (output.child file) = .ok location) :
    ∃ base, tree.walk output = .ok base ∧ location = base ++ [file] := by
  obtain ⟨hchild, hup⟩ := child_scaffold output hfile
  rw [hchild] at hlocate
  exact FileTree.exists_walk_of_locate_within hup hlocate

end Conversion

end RamlSchema
