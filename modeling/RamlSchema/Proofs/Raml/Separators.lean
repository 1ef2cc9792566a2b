import RamlSchema.Proofs.Naming.Marks
import RamlSchema.Proofs.Raml.Includes

/-!
# Separators in included paths

A path may be written with backslashes. Where it is looked through for a directory of enums either
slash counts, so both spellings are routed alike. But the file's name is only what follows the last
slash: a backslash behind that stays in the name, and no convention takes it out. So both spellings
refer to one file exactly if the last separator of the path is no backslash.
-/

namespace RamlSchema.Raml.TypeToken

variable {path : String}

/-! ### Paths with slashes -/

def slash (c : Char) : Char := if c = '\\' then '/' else c

/-- The path with a slash in place of every backslash. -/
def slashed (path : String) : String := Text.replaceChar path '\\' '/'

theorem toList_slashed (path : String) : (slashed path).toList = path.toList.map slash := by
  rw [slashed, Text.replaceChar, String.toList_ofList]
  rfl

theorem slash_of_ne {c : Char} (hc : c ≠ '\\') : slash c = c := if_neg hc

theorem slash_ne_backslash (c : Char) : slash c ≠ '\\' := by
  rw [slash]
  split
  case isTrue => decide
  case isFalse hc => exact hc

theorem backslash_notMem_slashed (path : String) : '\\' ∉ (slashed path).toList := by
  rw [toList_slashed, List.mem_map]
  rintro ⟨c, -, hc⟩
  exact slash_ne_backslash c hc

theorem slashed_eq_self (hpath : '\\' ∉ path.toList) : slashed path = path := by
  rw [← String.toList_inj, toList_slashed, List.map_congr_left, List.map_id]
  intro c hc
  exact slash_of_ne fun heq => hpath (heq ▸ hc)

theorem slashed_append (first later : String) :
    slashed (first ++ later) = slashed first ++ slashed later := by
  simp [← String.toList_inj, toList_slashed]

theorem isBlank_slash (c : Char) : Text.isBlank (slash c) = Text.isBlank c := by
  by_cases hc : c = '\\'
  · rw [hc]
    decide
  · rw [slash_of_ne hc]

theorem trim_slashed (path : String) : Text.trim (slashed path) = slashed (Text.trim path) := by
  have hblank : Text.isBlank ∘ slash = Text.isBlank := funext isBlank_slash
  rw [← String.toList_inj, toList_slashed, Text.trim, Text.trim, String.toList_ofList,
    String.toList_ofList, toList_slashed, Text.trimChars, Text.trimChars, Text.trimEndChars,
    Text.trimEndChars, Text.trimStartChars, Text.trimStartChars, List.dropWhile_map, hblank,
    ← List.map_reverse, List.dropWhile_map, hblank, List.map_reverse]

theorem dropSuffix?_slashed (path : String) :
    Text.dropSuffix? (slashed path) "?" = (Text.dropSuffix? path "?").map slashed := by
  cases hends : Text.dropSuffix? path "?" with
  | some rest =>
    rw [Text.dropSuffix?_eq_some_iff] at hends
    have hmark : slashed "?" = "?" := by decide
    rw [hends, slashed_append, hmark, Text.dropSuffix?_append, Option.map_some]
  | none =>
    rw [Option.map_none, Option.eq_none_iff_forall_ne_some]
    intro rest hrest
    have hchars := congrArg String.toList (Text.dropSuffix?_eq_some_iff.mp hrest)
    rw [toList_slashed, String.toList_append, List.map_eq_append_iff] at hchars
    obtain ⟨before, last, hsplit, -, hlast⟩ := hchars
    obtain ⟨c, rfl, hc⟩ := List.map_eq_singleton_iff.mp hlast
    have hmark : c = '?' := by
      by_cases hbackslash : c = '\\'
      · rw [hbackslash] at hc
        exact absurd hc (by decide)
      · rwa [slash_of_ne hbackslash] at hc
    have hsome : Text.dropSuffix? path "?" = some (.ofList before) := by
      rw [Text.dropSuffix?_eq_some_iff, ← String.toList_inj, hsplit, hmark]
      simp
    rw [hends] at hsome
    cases hsome

theorem clean_slashed (path : String) : clean (slashed path) = slashed (clean path) := by
  rw [clean, clean, trim_slashed, Text.stripSuffix, Text.stripSuffix, dropSuffix?_slashed]
  cases Text.dropSuffix? (Text.trim path) "?" <;> rfl

/-! ### The last separator -/

/-- The last character of a path that separates names, whichever slash it is. -/
def lastSeparator? (path : String) : Option Char :=
  path.toList.reverse.find? fun c => c == '/' || c == '\\'

theorem lastSeparator?_append (first later : String) :
    lastSeparator? (first ++ later) = (lastSeparator? later).or (lastSeparator? first) := by
  rw [lastSeparator?, String.toList_append, List.reverse_append, List.find?_append]
  rfl

theorem lastSeparator?_eq_none (hslash : '/' ∉ path.toList) (hbackslash : '\\' ∉ path.toList) :
    lastSeparator? path = none := by
  rw [lastSeparator?, List.find?_eq_none]
  intro c hc
  rw [List.mem_reverse] at hc
  rw [Bool.or_eq_true, beq_iff_eq, beq_iff_eq]
  rintro (rfl | rfl)
  · exact hslash hc
  · exact hbackslash hc

theorem backslash_notMem_of_allBlank (hpath : Text.AllBlank path) :
    '\\' ∉ path.toList := fun hmem =>
  absurd (hpath _ hmem) (by decide)

theorem lastSeparator?_of_allBlank (hpath : Text.AllBlank path) : lastSeparator? path = none :=
  lastSeparator?_eq_none (fun hmem => absurd (hpath _ hmem) (by decide))
    (backslash_notMem_of_allBlank hpath)

theorem lastSeparator?_trim (path : String) :
    lastSeparator? (Text.trim path) = lastSeparator? path := by
  obtain ⟨lead, tail, hlead, htail, hsplit⟩ := Text.exists_eq_trim path
  conv_rhs => rw [hsplit, lastSeparator?_append, lastSeparator?_append,
    lastSeparator?_of_allBlank hlead, lastSeparator?_of_allBlank htail, Option.or_none,
    Option.none_or]

theorem lastSeparator?_clean (path : String) :
    lastSeparator? (clean path) = lastSeparator? path := by
  rw [clean, ← lastSeparator?_trim path, Text.stripSuffix]
  cases hends : Text.dropSuffix? (Text.trim path) "?" with
  | none => rfl
  | some rest =>
    have hmark : lastSeparator? "?" = none := by decide
    rw [Text.dropSuffix?_eq_some_iff.mp hends, lastSeparator?_append, hmark]
    rfl

/-! ### The name of the file -/

theorem takeWhile_map_slash {cs : List Char}
    (hcs : (cs.find? fun c => c == '/' || c == '\\') ≠ some '\\') :
    (cs.map slash).takeWhile (· != '/') = cs.takeWhile (· != '/') := by
  induction cs with
  | nil => rfl
  | cons c cs ih =>
    by_cases hslash : c = '/'
    · rw [hslash]
      rfl
    · by_cases hbackslash : c = '\\'
      · rw [hbackslash] at hcs
        exact absurd rfl hcs
      · rw [List.find?_cons_of_neg (by simp [hslash, hbackslash])] at hcs
        rw [List.map_cons, slash_of_ne hbackslash, List.takeWhile_cons, List.takeWhile_cons, ih hcs]

theorem afterLast_slashed (hpath : lastSeparator? path ≠ some '\\') :
    Text.afterLast (slashed path) '/' = Text.afterLast path '/' := by
  rw [Text.afterLast, Text.afterLast, toList_slashed, ← List.map_reverse, takeWhile_map_slash hpath]

theorem backslash_mem_takeWhile {cs : List Char}
    (hcs : (cs.find? fun c => c == '/' || c == '\\') = some '\\') :
    '\\' ∈ cs.takeWhile (· != '/') := by
  induction cs with
  | nil => cases hcs
  | cons c cs ih =>
    by_cases hslash : c = '/'
    · rw [hslash] at hcs
      exact absurd (Option.some_inj.mp hcs) (by decide)
    · rw [List.takeWhile_cons_of_pos (by simpa using hslash), List.mem_cons]
      by_cases hbackslash : c = '\\'
      · exact .inl hbackslash.symm
      · rw [List.find?_cons_of_neg (by simp [hslash, hbackslash])] at hcs
        exact .inr (ih hcs)

/-- A backslash that separates the last name stays in what follows the last slash. -/
theorem backslash_mem_afterLast (hpath : lastSeparator? path = some '\\') :
    '\\' ∈ (Text.afterLast path '/').toList := by
  rw [Text.afterLast, String.toList_ofList, List.mem_reverse]
  exact backslash_mem_takeWhile hpath

/-- The name of an included file without its ending. -/
def includedName (path : String) : String := Text.stripSuffix (Text.afterLast path '/') ".raml"

theorem includeTarget_eq (path : String) :
    includeTarget path =
      if isEnumPath path then .enum (includedName path) else .object (includedName path) := rfl

theorem isEnumPath_slashed (path : String) : isEnumPath (slashed path) = isEnumPath path := by
  change (Text.fields (slashed (slashed path)) '/').dropLast.contains "enums" = _
  rw [slashed_eq_self (backslash_notMem_slashed path)]
  rfl

theorem backslash_mem_includedName (hpath : lastSeparator? path = some '\\') :
    '\\' ∈ (includedName path).toList := by
  have hname := backslash_mem_afterLast hpath
  rw [includedName, Text.stripSuffix]
  cases hends : Text.dropSuffix? (Text.afterLast path '/') ".raml" with
  | none => exact hname
  | some rest =>
    rw [Text.dropSuffix?_eq_some_iff.mp hends, String.toList_append, List.mem_append] at hname
    exact hname.resolve_right (by decide)

theorem backslash_notMem_includedName_slashed (path : String) :
    '\\' ∉ (includedName (slashed path)).toList := by
  refine fun hmem => backslash_notMem_slashed path ?_
  exact Text.mem_of_mem_afterLast (Text.mem_of_mem_stripSuffix hmem)

/-- No convention writes a backslash, and none takes one out. -/
theorem backslash_mem_apply_iff (convention : Convention) {name : String} :
    '\\' ∈ (convention.apply name).toList ↔ '\\' ∈ name.toList := by
  constructor
  · contrapose
    exact Naming.notMem_apply convention (by decide) (by decide) (by decide) (by decide)
  · exact Naming.mem_apply_of_mem convention ⟨by decide, by decide, by rfl, by decide +kernel⟩
      (by decide)

theorem apply_includedName_iff (convention : Convention) :
    convention.apply (includedName path) = convention.apply (includedName (slashed path)) ↔
      lastSeparator? path ≠ some '\\' := by
  constructor
  · intro hname hpath
    have hmem := (backslash_mem_apply_iff convention).mpr (backslash_mem_includedName hpath)
    rw [hname] at hmem
    exact backslash_notMem_includedName_slashed path ((backslash_mem_apply_iff convention).mp hmem)
  · intro hpath
    rw [includedName, includedName, afterLast_slashed hpath]

theorem reference_includeTarget_iff (convention : Convention) :
    (includeTarget path).reference convention =
        (includeTarget (slashed path)).reference convention ↔
      lastSeparator? path ≠ some '\\' := by
  rw [← apply_includedName_iff convention, includeTarget_eq, includeTarget_eq, isEnumPath_slashed]
  cases isEnumPath path <;> simp [Target.reference, Target.fileName, Target.fileNameBy]

/-! ### Both spellings -/

/-- Without a path, a directive is the plain name that it begins with. -/
theorem target?_include_of_allBlank (hpath : Text.AllBlank path) :
    target? (includeDirective ++ path) = some (.object "!include") := by
  have hclean : clean (includeDirective ++ path) = "!include" := by
    rw [clean, Text.trim_append_blanks hpath]
    decide
  have hempty : (includeDirective ++ path).isEmpty = false := by simp [includeDirective]
  have hscalar : isScalar (includeDirective ++ path) = false := by
    refine isScalar_of_head? ?_
    rw [hclean]
    rfl
  rw [target?, hempty, hscalar, hclean]
  decide

theorem slashed_of_allBlank (hpath : Text.AllBlank path) : slashed path = path :=
  slashed_eq_self (backslash_notMem_of_allBlank hpath)

/-- **Either slash leads to the same directory, but not to the same file.** An enum is taken for an
enum with both spellings of its path, and an object for an object. But the name of the file begins
behind the last slash only, so the references are equal unless the last separator of the path is a
backslash. -/
theorem include_agrees_with_slashed_iff (convention : Convention) (path : String) :
    (∃ name name',
      (target? (includeDirective ++ path) = some (.enum name) ∧
        target? (includeDirective ++ slashed path) = some (.enum name')) ∨
      (target? (includeDirective ++ path) = some (.object name) ∧
        target? (includeDirective ++ slashed path) = some (.object name'))) ∧
    (reference? convention (includeDirective ++ path) =
        reference? convention (includeDirective ++ slashed path) ↔
      lastSeparator? path ≠ some '\\') := by
  by_cases hpath : Text.trim path = ""
  · have hblank := Text.trim_eq_empty_iff.mp hpath
    rw [slashed_of_allBlank hblank, lastSeparator?_of_allBlank hblank]
    have htarget := target?_include_of_allBlank hblank
    exact ⟨⟨_, _, .inr ⟨htarget, htarget⟩⟩, iff_of_true rfl nofun⟩
  · have hslashed : Text.trim (slashed path) ≠ "" := by
      rw [trim_slashed]
      intro hempty
      refine hpath (String.toList_eq_nil_iff.mp ?_)
      have hchars := String.toList_eq_nil_iff.mpr hempty
      rwa [toList_slashed, List.map_eq_nil_iff] at hchars
    rw [reference?, reference?, target?_include hpath, target?_include hslashed, clean_slashed,
      trim_slashed, Option.map_some, Option.map_some, Option.some_inj, reference_includeTarget_iff,
      lastSeparator?_trim, lastSeparator?_clean]
    refine ⟨?_, Iff.rfl⟩
    rw [includeTarget_eq, includeTarget_eq, isEnumPath_slashed]
    cases isEnumPath (Text.trim (clean path)) with
    | true => exact ⟨_, _, .inl ⟨rfl, rfl⟩⟩
    | false => exact ⟨_, _, .inr ⟨rfl, rfl⟩⟩

/-- A path of enums with a backslash in front of the file keeps the directory in the name. -/
theorem include_with_backslash :
    reference? .pascal (includeDirective ++ "enums\\colors.raml") =
        some "./common/enums/Enums\\colorsEnum.schema.json" ∧
      reference? .pascal (includeDirective ++ slashed "enums\\colors.raml") =
        some "./common/enums/ColorsEnum.schema.json" ∧
      reference? .pascal (includeDirective ++ "enums\\colors.raml") ≠
        reference? .pascal (includeDirective ++ slashed "enums\\colors.raml") := by
  decide +kernel

end RamlSchema.Raml.TypeToken
