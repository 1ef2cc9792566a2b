import RamlSchema.Proofs.References.Paths

/-!
# The two names of a reference

A reference to a file has a declared name, which is that of the file without its ending, and a base
name, for which the whole reference is searched: first for the ending of a schema, and then for a
token with the ending of a document. So the two agree if the file ends like a schema, or if no
schema is named and the file is the first token; where its name has a blank, or another file comes
first, a search looks up two names.
-/

namespace RamlSchema.References

variable {reference lead rest name : String}

/-! ### The parts of a reference -/

/-- The part of a reference that leads to its file. -/
def directoryPart (reference : String) : String :=
  Text.dropEndWhile (filePart reference) (· != '/')

/-- The name of the file of a reference, with its ending. -/
def fileName (reference : String) : String := Text.afterLast (filePart reference) '/'

theorem exists_filePart (reference : String) :
    ∃ rest, reference = filePart reference ++ rest ∧ (∀ c ∈ rest.toList.head?, c = '#') ∧
      '#' ∉ (filePart reference).toList := by
  by_cases hmark : '#' ∈ reference.toList
  · obtain ⟨file, fragment, hsplit, hfile⟩ := List.eq_append_cons_of_mem hmark
    have hpart : filePart reference = .ofList file := by
      have hcut : Text.cut? reference "#" = some (.ofList file, .ofList fragment) := by
        have hmarks : "#".toList = ['#'] := by decide
        rw [Text.cut?, hsplit, hmarks, Text.cutChars?_singleton_append hfile]
        rfl
      rw [filePart, hcut]
    refine ⟨.ofList ('#' :: fragment), ?_, by simp, by simpa [hpart] using hfile⟩
    rw [hpart, ← String.ofList_append, ← hsplit, String.ofList_toList]
  · rw [filePart_eq_self hmark]
    exact ⟨"", by simp, by simp, hmark⟩

/-! ### The first file -/

/-- A text that can be the name of a file in a reference. -/
structure IsToken (name : String) : Prop where
  ne_empty : name ≠ ""
  all_isFileChar : ∀ c ∈ name.toList, isFileChar c = true

theorem fileRuns_append_cons {c : Char} (hc : isFileChar c = false) (lead rest : List Char) :
    fileRuns (lead ++ c :: rest) = fileRuns lead ++ fileRuns rest := by
  rw [fileRuns, List.splitOnP_append_cons _ _ (by simp [hc]), List.filter_append]
  rfl

/-- No run goes across a place that one of the marks between files stands at. -/
theorem fileRuns_append {lead rest : List Char}
    (h : (∀ c ∈ lead.getLast?, isFileChar c = false) ∨ ∀ c ∈ rest.head?, isFileChar c = false) :
    fileRuns (lead ++ rest) = fileRuns lead ++ fileRuns rest := by
  rcases h with hlast | hfirst
  · rcases List.eq_nil_or_concat' lead with rfl | ⟨lead, c, rfl⟩
    · rfl
    · have hc : isFileChar c = false := hlast c (by simp)
      have hlead : fileRuns (lead ++ [c]) = fileRuns lead := by
        rw [fileRuns_append_cons hc lead []]
        exact List.append_nil _
      rw [List.append_assoc, List.singleton_append, fileRuns_append_cons hc, hlead]
  · cases rest with
    | nil => exact (congrArg fileRuns (List.append_nil lead)).trans (List.append_nil _).symm
    | cons c rest =>
      have hc : isFileChar c = false := hfirst c (by simp)
      have hrest : fileRuns (c :: rest) = fileRuns rest := fileRuns_append_cons hc [] rest
      rw [fileRuns_append_cons hc, hrest]

theorem firstFile?_append
    (h : (∀ c ∈ lead.toList.getLast?, isFileChar c = false) ∨
      ∀ c ∈ rest.toList.head?, isFileChar c = false) :
    firstFile? (lead ++ rest) = (firstFile? lead).or (firstFile? rest) := by
  rw [firstFile?, String.toList_append, fileRuns_append h, List.findSome?_append, Option.map_or]
  rfl

theorem jsonFile?_append {stem : List Char} (hstem : stem ≠ []) :
    jsonFile? (stem ++ jsonEnding.toList) = some stem := by
  have hending : jsonEnding.toList.reverse ≠ [] := by decide
  rw [jsonFile?, List.reverse_append, Text.cutChars?_append hending]
  simp [hstem]

theorem mem_of_jsonFile?_eq_some {run stem : List Char} (hrun : jsonFile? run = some stem) :
    stem ≠ [] ∧ ∀ c ∈ stem, c ∈ run := by
  unfold jsonFile? at hrun
  split at hrun
  case h_2 => cases hrun
  case h_1 after before hcut =>
    split at hrun
    case isTrue => cases hrun
    case isFalse hbefore =>
      obtain rfl := Option.some.inj hrun
      refine ⟨by simpa using hbefore, fun c hc => List.mem_reverse.mp ?_⟩
      rw [Text.eq_append_of_cutChars?_eq_some hcut]
      simp [List.mem_reverse.mp hc]

/-- The name of a file that has no marks in it is found. -/
theorem IsToken.firstFile?_append (h : IsToken name) :
    firstFile? (name ++ jsonEnding) = some name := by
  have hstem : name.toList ≠ [] := mt String.toList_eq_nil_iff.mp h.ne_empty
  have hchars : ∀ c ∈ (name ++ jsonEnding).toList, (!isFileChar c) = false := by
    have hending : jsonEnding.toList.all isFileChar = true := by decide
    intro c hc
    rw [String.toList_append, List.mem_append] at hc
    rw [Bool.not_eq_false']
    exact hc.elim (h.all_isFileChar c) (List.all_eq_true.mp hending c)
  have hruns : fileRuns (name ++ jsonEnding).toList = [(name ++ jsonEnding).toList] := by
    rw [fileRuns, List.splitOnP_eq_singleton hchars, List.filter_cons_of_pos, List.filter_nil]
    simp [hstem]
  rw [firstFile?, hruns, List.findSome?_singleton, String.toList_append, jsonFile?_append hstem,
    Option.map_some, String.ofList_toList]

theorem isToken_of_firstFile? (hfirst : firstFile? reference = some name) : IsToken name := by
  obtain ⟨stem, hfind, rfl⟩ := Option.map_eq_some_iff.mp hfirst
  obtain ⟨run, hrun, hjson⟩ := List.exists_of_findSome?_eq_some hfind
  obtain ⟨hstem, hchars⟩ := mem_of_jsonFile?_eq_some hjson
  refine ⟨by simpa using hstem, fun c hc => ?_⟩
  rw [String.toList_ofList] at hc
  simpa using Text.eq_false_of_mem_splitOnP (List.mem_of_mem_filter hrun) c (hchars c hc)

/-- What stands in front of a file's name comes first, and the fragment last. -/
theorem exists_firstFile?_eq (reference : String) :
    ∃ behind?, firstFile? reference =
      (firstFile? (directoryPart reference)).or
        ((firstFile? (fileName reference)).or behind?) := by
  obtain ⟨rest, hsplit, hrest, -⟩ := exists_filePart reference
  have hslash (c : Char) (hc : c ∈ (directoryPart reference).toList.getLast?) :
      isFileChar c = false := by
    rw [Text.getLast?_dropEndWhile hc]
    decide
  have hhash (c : Char) (hc : c ∈ rest.toList.head?) : isFileChar c = false := by
    rw [hrest c hc]
    decide
  refine ⟨firstFile? rest, ?_⟩
  calc firstFile? reference
    _ = (firstFile? (filePart reference)).or (firstFile? rest) := by
        rw [← firstFile?_append (.inr hhash), ← hsplit]
    _ = _ := by
        rw [← Option.or_assoc, ← firstFile?_append (.inl hslash), directoryPart, fileName,
          Text.dropEndWhile_append_afterLast]

/-! ### Names of a file -/

theorem endsWith_filePart_iff {ending : String} (hslash : '/' ∉ ending.toList) :
    Text.endsWith (filePart reference) ending = true ↔
      ∃ stem, fileName reference = stem ++ ending := by
  rw [Text.endsWith_iff, fileName]
  constructor
  · rintro ⟨stem, hstem⟩
    rw [hstem, Text.afterLast_append_of_notMem stem hslash]
    exact ⟨_, rfl⟩
  · rintro ⟨stem, hstem⟩
    refine ⟨directoryPart reference ++ stem, ?_⟩
    rw [String.append_assoc, ← hstem, directoryPart, Text.dropEndWhile_append_afterLast]

theorem filePart_ne_empty (hjson : Text.endsWith (filePart reference) jsonEnding = true) :
    filePart reference ≠ "" := by
  intro hempty
  rw [hempty] at hjson
  exact absurd hjson (by decide)

theorem contains_of_endsWith_filePart
    (hends : Text.endsWith (filePart reference) schemaEnding = true) :
    Text.contains reference schemaEnding = true := by
  obtain ⟨rest, hsplit, -, -⟩ := exists_filePart reference
  obtain ⟨lead, hlead⟩ := Text.endsWith_iff.mp hends
  rw [Text.contains_iff (by decide), hsplit, hlead, String.toList_append, String.toList_append]
  exact List.infix_append ..

section File

variable (hfile : filePart reference ≠ "")
include hfile

theorem declaredName_eq_fileStem_fileName : declaredName reference =
    (Text.dropSuffix? (fileName reference) schemaEnding).getD
      (Text.stripSuffix (fileName reference) jsonEnding) := by
  rw [declaredName, if_neg (mt String.isEmpty_iff.mp hfile)]
  rfl

theorem startsWith_fragment_eq_false : Text.startsWith reference "#/" = false := by
  obtain ⟨rest, hsplit, -, hhash⟩ := exists_filePart reference
  refine Text.startsWith_eq_false_of_head (by decide) fun hhead => ?_
  rw [hsplit, String.toList_append,
    List.head?_append_of_ne_nil _ (mt String.toList_eq_nil_iff.mp hfile)] at hhead
  exact hhash (List.mem_of_mem_head? hhead)

theorem baseName_of_contains (hcontains : Text.contains reference schemaEnding = true) :
    baseName reference = Text.stripSuffix (fileName reference) schemaEnding := by
  rw [baseName, startsWith_fragment_eq_false hfile, if_neg Bool.false_ne_true, if_pos hcontains]
  rfl

theorem baseName_of_not_contains (hcontains : Text.contains reference schemaEnding = false) :
    baseName reference = (firstFile? reference).getD
      (Text.afterLast (Text.dropEndWhile reference (· == '/')) '/') := by
  rw [baseName, startsWith_fragment_eq_false hfile, if_neg Bool.false_ne_true, hcontains,
    if_neg Bool.false_ne_true]
  cases firstFile? reference <;> rfl

end File

theorem endsWith_eq_false (hcontains : Text.contains reference schemaEnding = false) :
    Text.endsWith (filePart reference) schemaEnding = false := by
  rw [← Bool.not_eq_true]
  intro hends
  rw [contains_of_endsWith_filePart hends] at hcontains
  cases hcontains

theorem dropSuffix?_fileName_eq_none
    (hschema : Text.endsWith (filePart reference) schemaEnding = false) :
    Text.dropSuffix? (fileName reference) schemaEnding = none := by
  rw [Option.eq_none_iff_forall_ne_some]
  intro stem hstem
  have hends := (endsWith_filePart_iff (by decide)).mpr
    ⟨stem, Text.dropSuffix?_eq_some_iff.mp hstem⟩
  rw [hschema] at hends
  cases hends

/-- A file with no ending of a schema has that of a document behind its declared name. -/
theorem fileName_eq_declaredName_append
    (hjson : Text.endsWith (filePart reference) jsonEnding = true)
    (hschema : Text.endsWith (filePart reference) schemaEnding = false) :
    fileName reference = declaredName reference ++ jsonEnding := by
  obtain ⟨stem, hstem⟩ := (endsWith_filePart_iff (by decide)).mp hjson
  rw [declaredName_eq_fileStem_fileName (filePart_ne_empty hjson),
    dropSuffix?_fileName_eq_none hschema, Option.getD_none, hstem, Text.stripSuffix_append]

/-! ### Where the names agree -/

theorem Index.findIgnoringCase_twice (index : Index) (name : String) :
    index.findIgnoringCase [name, name] = index.findIgnoringCase [name] := by
  by_cases hname : name.isEmpty <;> simp [findIgnoringCase, hname]

/-- Where the ending of a schema stands in a reference, it has to be that of the file. -/
theorem baseName_eq_declaredName_iff_of_contains
    (hjson : Text.endsWith (filePart reference) jsonEnding = true)
    (hcontains : Text.contains reference schemaEnding = true) :
    baseName reference = declaredName reference ↔
      Text.endsWith (filePart reference) schemaEnding = true := by
  have hfile := filePart_ne_empty hjson
  rw [baseName_of_contains hfile hcontains]
  constructor
  · intro hname
    by_contra hends
    have hschema := Bool.not_eq_true _ ▸ hends
    rw [Text.stripSuffix, dropSuffix?_fileName_eq_none hschema, Option.getD_none,
      fileName_eq_declaredName_append hjson hschema] at hname
    have hlength := congrArg (fun name => name.toList.length) hname
    simp [jsonEnding] at hlength
  · intro hschema
    obtain ⟨stem, hstem⟩ := (endsWith_filePart_iff (by decide)).mp hschema
    rw [declaredName_eq_fileStem_fileName hfile, hstem, Text.stripSuffix_append,
      Text.dropSuffix?_append, Option.getD_some]

/-- The base name of a reference without the ending of a schema is the declared one if that is the
first file in the reference, or where no file is found if it is the last part. -/
theorem baseName_eq_declaredName_iff_of_not_contains
    (hjson : Text.endsWith (filePart reference) jsonEnding = true)
    (hcontains : Text.contains reference schemaEnding = false) :
    baseName reference = declaredName reference ↔
      IsToken (declaredName reference) ∧
          (∀ name, firstFile? (directoryPart reference) = some name →
            name = declaredName reference) ∨
        firstFile? reference = none ∧
          Text.afterLast (Text.dropEndWhile reference (· == '/')) '/' = declaredName reference := by
  have hfileName := fileName_eq_declaredName_append hjson (endsWith_eq_false hcontains)
  obtain ⟨behind?, hfirst⟩ := exists_firstFile?_eq reference
  rw [baseName_of_not_contains (filePart_ne_empty hjson) hcontains]
  constructor
  · intro hname
    cases hfound : firstFile? reference with
    | none => exact .inr ⟨rfl, by rwa [hfound, Option.getD_none] at hname⟩
    | some found =>
      rw [hfound, Option.getD_some] at hname
      subst hname
      refine .inl ⟨isToken_of_firstFile? hfound, fun name hdirectory => ?_⟩
      rw [hfound, hdirectory, Option.some_or] at hfirst
      exact (Option.some.inj hfirst).symm
  · rintro (⟨htoken, hdirectory⟩ | ⟨hnone, hlast⟩)
    · rw [hfileName, htoken.firstFile?_append, Option.some_or] at hfirst
      cases hfound : firstFile? (directoryPart reference) with
      | none => rw [hfirst, hfound, Option.none_or, Option.getD_some]
      | some name => rw [hfirst, hfound, Option.some_or, Option.getD_some, hdirectory name hfound]
    · rw [hnone, Option.getD_none, hlast]

/-- **Where the two names of a reference to a file agree.** They do if the file has the ending of a
schema. With the ending of a document they do only if the other ending stands nowhere in the
reference, and the declared name is one token, before which no other is found. There is one more
case, in which the reference has no token at all and the declared name happens to be its last part.
Wherever they agree, a search is the same without its second step. -/
theorem base_names_agree_iff (hjson : Text.endsWith (filePart reference) jsonEnding = true) :
    (baseName reference = declaredName reference ↔
      Text.endsWith (filePart reference) schemaEnding = true ∨
        Text.contains reference schemaEnding = false ∧
          (IsToken (declaredName reference) ∧
              (∀ name, firstFile? (directoryPart reference) = some name →
                name = declaredName reference) ∨
            firstFile? reference = none ∧
              Text.afterLast (Text.dropEndWhile reference (· == '/')) '/' =
                declaredName reference)) ∧
    (baseName reference = declaredName reference →
      ∀ index : Index, index.search (.ofText reference) =
        (index.get? (declaredName reference)).or
          ((index.get? (strippedReference reference)).or
            (index.findIgnoringCase [declaredName reference]))) := by
  constructor
  · cases hcontains : Text.contains reference schemaEnding with
    | true => simp [baseName_eq_declaredName_iff_of_contains hjson hcontains]
    | false =>
      simp [baseName_eq_declaredName_iff_of_not_contains hjson hcontains,
        endsWith_eq_false hcontains]
  · intro hname index
    rw [Index.search, Reference.ofText, hname, Index.findIgnoringCase_twice]
    cases index.get? (declaredName reference) <;> rfl

theorem base_names_agree_thing :
    baseName "other/Thing.json#/x" = declaredName "other/Thing.json#/x" ∧
      declaredName "other/Thing.json#/x" = "Thing" := by
  have hdeclared : declaredName "other/Thing.json#/x" = "Thing" := by decide +kernel
  have hjson : Text.endsWith (filePart "other/Thing.json#/x") jsonEnding = true := by
    decide +kernel
  have hschema : Text.contains "other/Thing.json#/x" schemaEnding = false := by decide +kernel
  have hdirectory : firstFile? (directoryPart "other/Thing.json#/x") = none := by decide +kernel
  have htoken : IsToken "Thing" := ⟨by decide, List.all_eq_true.mp (by decide)⟩
  obtain ⟨hagree, -⟩ := base_names_agree_iff hjson
  refine ⟨hagree.mpr (.inr ⟨hschema, .inl ⟨hdeclared ▸ htoken, fun name hname => ?_⟩⟩), hdeclared⟩
  rw [hdirectory] at hname
  cases hname

/-- The schema that a reference to another file is taken for. -/
def wrongSchema : LoadedSchema := .ofDocument ⟨"", ["schemas"]⟩ ["b.json"] (.obj [])

/-- A blank in the name of a file, the ending of a schema in the fragment and a file in front of the
file make the two names differ, so that a search can find a schema by the wrong one. -/
theorem base_names_differ :
    (filePart "a b.json" ≠ "" ∧ Text.endsWith (filePart "a b.json") jsonEnding = true ∧
      baseName "a b.json" = "b" ∧ declaredName "a b.json" = "a b" ∧
      (Index.ofSchemas [wrongSchema]).search (.ofText "a b.json") = some wrongSchema.id) ∧
    (Text.endsWith (filePart "Foo.json#/x.schema.json") jsonEnding = true ∧
      baseName "Foo.json#/x.schema.json" = "Foo.json" ∧
      declaredName "Foo.json#/x.schema.json" = "Foo") ∧
    (Text.endsWith (filePart "x.json/Foo.json") jsonEnding = true ∧
      baseName "x.json/Foo.json" = "x" ∧ declaredName "x.json/Foo.json" = "Foo") := by
  decide +kernel

end RamlSchema.References
