import RamlSchema.Proofs.Naming.TypeNames
import RamlSchema.Proofs.Raml.Sections
import RamlSchema.Files.Path

/-!
# Included files

An include directive refers to a type that is called like the file, without its ending. The type in
the file itself goes by the type name made of that.
-/

namespace RamlSchema.Raml

open Files (Path)

/-! ### Directives -/

namespace TypeToken

/-- The directive that includes the file of a stem. -/
def includeToken (directory stem : String) : String :=
  includeDirective ++ (directory ++ "/" ++ (stem ++ ".raml"))

theorem trim_path (directory : String) {file : String} (hne : file ≠ "")
    (hlast : ∀ c ∈ file.toList.getLast?, Text.isBlank c = false) : ∃ lead : String,
      Text.trim (directory ++ "/" ++ file) = .ofList (lead.toList ++ '/' :: file.toList) := by
  have hchars : (directory ++ "/" ++ file).toList = directory.toList ++ '/' :: file.toList := by
    simp
  have hstart : Text.trimStartChars (directory ++ "/" ++ file).toList =
      directory.toList.dropWhile Text.isBlank ++ '/' :: file.toList := by
    rw [Text.trimStartChars, hchars, List.dropWhile_append]
    split
    case isTrue hempty =>
      rw [List.isEmpty_iff.mp hempty, List.dropWhile_cons_of_neg (by decide), List.nil_append]
    case isFalse => rfl
  have hend : Text.trimEndChars (directory.toList.dropWhile Text.isBlank ++ '/' :: file.toList) =
      directory.toList.dropWhile Text.isBlank ++ '/' :: file.toList := by
    have hself : List.rdropWhile Text.isBlank
        (directory.toList.dropWhile Text.isBlank ++ '/' :: file.toList) =
          directory.toList.dropWhile Text.isBlank ++ '/' :: file.toList := by
      rw [List.rdropWhile_eq_self_iff]
      intro hl
      have hfile : file.toList.getLast? = some (List.getLast _ hl) := by
        rw [← List.getLast?_eq_some_getLast hl,
          List.getLast?_append_of_ne_nil _ (List.cons_ne_nil _ _), List.getLast?_cons,
          List.getLast?_eq_some_getLast (by simpa using hne)]
        rfl
      rw [hlast _ hfile]
      exact Bool.false_ne_true
    exact hself
  refine ⟨.ofList (directory.toList.dropWhile Text.isBlank), ?_⟩
  rw [Text.trim, Text.trimChars, hstart, hend, String.toList_ofList]

theorem isScalar_of_head? {token : String} (hhead : (clean token).toList.head? = some '!') :
    isScalar token = false := by
  have hnames : ∀ entry ∈ scalarTypes, entry.1.toList.head? ≠ some '!' := by decide
  have hlookup : scalarTypes.lookup (clean token) = none := by
    rw [List.lookup_eq_none_iff]
    intro entry hentry
    rw [bne_iff_ne]
    intro heq
    refine hnames entry hentry ?_
    rw [← heq, hhead]
  rw [isScalar, scalarType?, hlookup]
  rfl

theorem head?_includeDirective_append (path : String) :
    (includeDirective ++ path).toList.head? = some '!' := by
  rw [String.toList_append, List.head?_append_of_ne_nil _ (by decide)]
  rfl

/-- A directive keeps the blanks in front of its path. -/
theorem exists_clean_include {path : String} (hpath : Text.trim path ≠ "") :
    ∃ lead, Text.AllBlank lead ∧
      clean (includeDirective ++ path) = includeDirective ++ (lead ++ clean path) := by
  obtain ⟨lead, tail, hlead, htail, hsplit⟩ := Text.exists_eq_trim path
  have hlast := (Text.trim_eq_self_iff.mp (Text.trim_trim path)).2
  have htrim : Text.trim (includeDirective ++ (lead ++ Text.trim path)) =
      includeDirective ++ (lead ++ Text.trim path) := by
    rw [Text.trim_eq_self_iff, head?_includeDirective_append, ← String.append_assoc,
      String.toList_append, List.getLast?_append_of_ne_nil _ (mt String.toList_eq_nil_iff.mp hpath)]
    refine ⟨?_, hlast⟩
    rintro _ ⟨⟩
    decide
  have hmark : "?" = String.singleton '?' := by decide
  refine ⟨lead, hlead, ?_⟩
  calc clean (includeDirective ++ path)
    _ = Text.stripSuffix
          (Text.trim (includeDirective ++ (lead ++ Text.trim path) ++ tail)) "?" := by
        rw [clean, String.append_assoc, String.append_assoc, ← hsplit]
    _ = Text.stripSuffix (includeDirective ++ lead ++ Text.trim path) "?" := by
        rw [Text.trim_append_blanks htail, htrim, String.append_assoc]
    _ = includeDirective ++ (lead ++ clean path) := by
        rw [hmark, Text.stripSuffix_append_singleton hpath, String.append_assoc, clean, hmark]

/-- A directive includes its path without the blanks around it and a question mark at its end. -/
theorem target?_include {path : String} (hpath : Text.trim path ≠ "") :
    target? (includeDirective ++ path) = some (includeTarget (Text.trim (clean path))) := by
  obtain ⟨lead, hlead, hclean⟩ := exists_clean_include hpath
  have hempty : (includeDirective ++ path).isEmpty = false := by simp [includeDirective]
  have hscalar : isScalar (includeDirective ++ path) = false := by
    refine isScalar_of_head? ?_
    rw [hclean, head?_includeDirective_append]
  rw [target?, hempty, hscalar, hclean, Text.dropPrefix?_append]
  change some (includeTarget (Text.trim (lead ++ clean path))) = _
  rw [Text.trim_blanks_append hlead]

/-- An include directive refers to what the file is called, an enum if the path leads through a
directory of enums. -/
theorem target?_includeToken (directory : String) {stem : String} (hslash : '/' ∉ stem.toList) :
    target? (includeToken directory stem) =
      some (if isEnumPath (Text.trim (directory ++ "/" ++ (stem ++ ".raml"))) then .enum stem
        else .object stem) := by
  have hfile : (stem ++ ".raml").toList.getLast? = some 'l' := by
    rw [String.toList_append, List.getLast?_append_of_ne_nil _ (by decide)]
    decide
  obtain ⟨lead, hlead⟩ : ∃ lead : String, Text.trim (directory ++ "/" ++ (stem ++ ".raml")) =
      .ofList (lead.toList ++ '/' :: (stem ++ ".raml").toList) :=
    trim_path directory (by simp) (by rw [hfile]; rintro _ ⟨⟩; decide)
  have hpath : Text.trim (directory ++ "/" ++ (stem ++ ".raml")) ≠ "" := by
    rw [hlead]
    simp
  have hname : Text.afterLast (Text.trim (directory ++ "/" ++ (stem ++ ".raml"))) '/' =
      stem ++ ".raml" := by
    rw [hlead]
    exact Text.afterLast_append (by simp [hslash])
  have hmark : Text.dropSuffix? (Text.trim (directory ++ "/" ++ (stem ++ ".raml"))) "?" = none := by
    rw [Option.eq_none_iff_forall_ne_some]
    intro rest hrest
    have hlast := congrArg (fun s => s.toList.getLast?) (Text.dropSuffix?_eq_some_iff.mp hrest)
    simp only [hlead, String.toList_ofList, String.toList_append] at hlast
    rw [List.getLast?_append_of_ne_nil _ (List.cons_ne_nil _ _),
      List.getLast?_append_of_ne_nil _ (by decide), ← String.toList_append,
      List.getLast?_cons, hfile] at hlast
    exact absurd hlast (by decide)
  have hclean : clean (directory ++ "/" ++ (stem ++ ".raml")) =
      Text.trim (directory ++ "/" ++ (stem ++ ".raml")) := by
    rw [clean, Text.stripSuffix, hmark, Option.getD_none]
  rw [includeToken, target?_include hpath, hclean, Text.trim_trim, includeTarget, hname,
    Text.stripSuffix_append]

end TypeToken

/-! ### Files -/

theorem stemOf_append {stem : String} (hstem : stem ≠ "") :
    Path.stemOf (stem ++ ".raml") = stem := by
  have hending : (stem ++ ".raml").toList.reverse =
      ['l', 'm', 'a', 'r'] ++ '.' :: stem.toList.reverse := by
    rw [String.toList_append, List.reverse_append]
    rfl
  have htake : (stem ++ ".raml").toList.reverse.takeWhile (· != '.') = ['l', 'm', 'a', 'r'] := by
    rw [hending, List.takeWhile_append_of_pos (by simp)]
    rfl
  have hne : stem.toList.reverse.isEmpty = false := by simpa using hstem
  rw [Path.stemOf, htake, hending]
  simp [hstem]

namespace SingleType

/-- The first type of such a file goes by the type name made of the stem. -/
theorem exists_types_eq (convention : Convention) (stem : String) (lines : List Line) :
    ∃ type lifted, (types convention stem lines).1 = type :: lifted ∧
      type.name = Naming.typeName stem := by
  have hstart : Grown convention (Naming.typeName stem) lines []
      { type := { name := Naming.typeName stem } } :=
    ⟨rfl, rfl, nofun, nofun, List.forall_mem_nil _, List.forall_mem_nil _, List.forall_mem_nil _⟩
  exact ⟨_, _, rfl, (hstart.read rfl).name_eq⟩

end SingleType

theorem Source.exists_types_eq {convention : Convention} {content stem : String}
    {source : Option String} {parsed : Parsed}
    (hparse : parse convention content stem source = .ok parsed)
    (hformat : SourceFormat.ofContent content = .dataType) :
    ∃ type lifted, parsed.types = type :: lifted ∧ type.name = Naming.typeName stem := by
  rw [(parse_eq_ok hparse).1, hformat]
  exact SingleType.exists_types_eq convention stem _

end RamlSchema.Raml
