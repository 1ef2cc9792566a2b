import Mathlib.Data.List.Chain
import RamlSchema.Proofs.Naming.TypeNames

/-!
# Names that a convention leaves as they are

Writing a name again changes nothing, although the second pass sees other neighbours than the first:
a removed separator brings letters together, and a letter may become several. What carries the proof
is a normal form for each convention. It speaks of single characters, and of the first one, but
never of neighbours, so no new neighbourhood can break it. A written name is in normal form, and a
name in normal form is written as it is.
-/

namespace RamlSchema

open Text.Case (eq_of_mem_upperChar lowerChar lowerChar_of_mem_lowerChar lowerChars lowerFrom
  lowerFrom_cons lowerIn lowerIn_of_ne sigmaForm_eq_or upperChar upperChar_of_mem_upperChar)

/-- The characters that stand in the names of a convention. -/
def Convention.allows : Convention → Char → Bool
  | .kebab, c => !c.isUpper && c != '_' && !Text.isBlank c
  | .snake, c => !c.isUpper && c != '-' && !Text.isBlank c
  | .camel, c => c != '-' && c != '_' && !Text.isBlank c
  | .pascal, c => c != '-' && c != '_' && !Text.isBlank c

namespace Naming

/-! ### Words with marks -/

/-- A name in small letters with one kind of separator. -/
def IsMarked (mark : Char) (cs : List Char) : Prop :=
  ∀ c ∈ cs, isOther mark c = false ∧ lowerChar c = [c]

variable {mark : Char} {cs : List Char}

theorem not_isUpper_of_lowerChar_eq {c : Char} (hc : lowerChar c = [c]) : c.isUpper = false := by
  by_contra hupper
  rw [Bool.not_eq_false] at hupper
  have hcapital := isCapitalOf_toLower hupper
  rw [hcapital.lower_eq.1, List.singleton_inj] at hc
  exact absurd (hc ▸ hcapital.isUpper_eq.2) (by rw [hupper]; decide)

theorem lowerChar_of_mem_lowerIn {before after : List Char} {c d : Char}
    (hd : d ∈ lowerIn before c after) : lowerChar d = [d] := by
  unfold lowerIn at hd
  split at hd
  case isTrue =>
    -- both small sigmas stay, so the context of the capital does not matter any more
    rw [List.mem_singleton] at hd
    rcases sigmaForm_eq_or before after with hform | hform <;> rw [hd, hform] <;> decide +kernel
  case isFalse => exact lowerChar_of_mem_lowerChar hd

theorem lowerChar_of_mem_lowerFrom {before : List Char} {d : Char} (hd : d ∈ lowerFrom before cs) :
    lowerChar d = [d] := by
  induction cs generalizing before with
  | nil => cases hd
  | cons c cs ih =>
    rw [lowerFrom_cons, List.mem_append] at hd
    rcases hd with hd | hd
    · exact lowerChar_of_mem_lowerIn hd
    · exact ih hd

theorem mem_collapse {kind : Char → Bool} {within : Bool} {d : Char}
    (hd : d ∈ collapse kind mark within cs) : d = mark ∨ d ∈ cs ∧ kind d = false := by
  induction cs generalizing within with
  | nil => cases hd
  | cons c cs ih =>
    rw [collapse] at hd
    by_cases hc : kind c = true
    · rw [if_pos hc, List.mem_append] at hd
      rcases hd with hd | hd
      · cases within with
        | true => cases hd
        | false => exact .inl (List.mem_singleton.mp hd)
      · exact (ih hd).imp_right fun h => ⟨List.mem_cons_of_mem c h.1, h.2⟩
    · rw [if_neg hc, List.mem_cons] at hd
      rcases hd with rfl | hd
      · exact .inr ⟨List.mem_cons_self, Bool.eq_false_iff.mpr hc⟩
      · exact (ih hd).imp_right fun h => ⟨List.mem_cons_of_mem c h.1, h.2⟩

theorem isMarked_markWords (hmark : isHyphenOrLow mark = true) (cs : List Char) :
    IsMarked mark (markWords mark cs) := by
  intro c hc
  rcases mem_collapse hc with rfl | ⟨hmem, hother⟩
  · have hseparator : isSeparator c = true := by rw [isSeparator, hmark, Bool.true_or]
    exact ⟨by simp [isOther], (isCaseless_of_isSeparator hseparator).lower_eq⟩
  · exact ⟨hother, lowerChar_of_mem_lowerFrom hmem⟩

theorem splitHumps_of_isMarked (hcs : IsMarked mark cs) : splitHumps mark cs = cs := by
  fun_induction splitHumps mark cs with
  | case1 a b rest hhump ih =>
    have hupper := not_isUpper_of_lowerChar_eq (hcs b (by simp)).2
    rw [isHump, hupper, Bool.and_false] at hhump
    cases hhump
  | case2 a b rest hhump ih => rw [ih fun c hc => hcs c (List.mem_cons_of_mem a hc)]
  | case3 => rfl

theorem lowerFrom_of_isMarked (hcs : IsMarked mark cs) (before : List Char) :
    lowerFrom before cs = cs := by
  induction cs generalizing before with
  | nil => rfl
  | cons c cs ih =>
    obtain ⟨⟨-, hc⟩, hcs⟩ := List.forall_mem_cons.mp hcs
    have hsigma : c ≠ Text.Case.capitalSigma := by
      rintro rfl
      exact absurd hc (by decide +kernel)
    rw [lowerFrom_cons, lowerIn_of_ne hsigma, hc, ih hcs]
    rfl

theorem collapse_of_isMarked (hcs : IsMarked mark cs) (within : Bool) :
    collapse (isOther mark) mark within cs = cs := by
  induction cs generalizing within with
  | nil => rfl
  | cons c cs ih =>
    obtain ⟨⟨hc, -⟩, hcs⟩ := List.forall_mem_cons.mp hcs
    rw [collapse, hc, if_neg Bool.false_ne_true, ih hcs]

theorem markWords_of_isMarked (hcs : IsMarked mark cs) : markWords mark cs = cs := by
  rw [markWords, lowerChars, splitHumps_of_isMarked hcs, lowerFrom_of_isMarked hcs,
    collapse_of_isMarked hcs]

/-! ### Words in capitals -/

/-- A name in one word that starts with a fixed point of `f`. -/
def IsJoined (f : Char → List Char) (cs : List Char) : Prop :=
  (∀ c ∈ cs, isSeparator c = false) ∧ ∀ c ∈ cs.head?, f c = [c]

theorem not_isSeparator_of_mem_joinWords {pending : Bool} {d : Char}
    (hd : d ∈ joinWords pending cs) : isSeparator d = false := by
  induction cs generalizing pending with
  | nil => cases hd
  | cons c cs ih =>
    rw [joinWords] at hd
    by_cases hc : isSeparator c = true
    · rw [if_pos hc] at hd
      exact ih hd
    · rw [if_neg hc, List.mem_append] at hd
      rcases hd with hd | hd
      · rw [Bool.not_eq_true] at hc
        cases pending with
        | true => rw [upperChar_of_isSeparator hd, hc]
        | false => rw [List.mem_singleton.mp hd, hc]
      · exact ih hd

theorem joinWords_of_forall (hcs : ∀ c ∈ cs, isSeparator c = false) :
    joinWords false cs = cs := by
  have happend := joinWords_append hcs []
  rwa [List.append_nil, joinWords, List.append_nil] at happend

/-- The hypotheses hold of both case forms of a character. -/
theorem isJoined_mapFirst {f : Char → List Char} (hne : ∀ c, f c ≠ [])
    (hfixed : ∀ c, ∀ d ∈ f c, f d = [d])
    (hseparator : ∀ c, ∀ d ∈ f c, isSeparator d = isSeparator c)
    (hcs : ∀ c ∈ cs, isSeparator c = false) : IsJoined f (mapFirst f cs) := by
  cases cs with
  | nil => exact ⟨hcs, fun c hc => by cases hc⟩
  | cons c cs =>
    obtain ⟨hc, hcs⟩ := List.forall_mem_cons.mp hcs
    constructor
    · intro d hd
      rcases List.mem_append.mp hd with hd | hd
      · rw [hseparator c d hd, hc]
      · exact hcs d hd
    · intro d hd
      rw [mapFirst, List.head?_append_of_ne_nil _ (hne c)] at hd
      exact hfixed c d (List.mem_of_mem_head? hd)

theorem mapFirst_of_isJoined {f : Char → List Char} (hcs : IsJoined f cs) :
    mapFirst f (joinWords false cs) = cs := by
  rw [joinWords_of_forall hcs.1]
  cases cs with
  | nil => rfl
  | cons c cs =>
    rw [mapFirst, hcs.2 c rfl]
    rfl

theorem not_isBlank_of_not_isSeparator {c : Char} (hc : isSeparator c = false) :
    c ≠ '-' ∧ c ≠ '_' ∧ Text.isBlank c = false := by
  rw [isSeparator, Bool.or_eq_false_iff, isHyphenOrLow, Bool.or_eq_false_iff, beq_eq_false_iff_ne,
    beq_eq_false_iff_ne, and_assoc] at hc
  exact hc

theorem lowerChar_of_isSeparator {c d : Char} (hmem : d ∈ lowerChar c) :
    isSeparator d = isSeparator c := by
  rw [Bool.eq_iff_iff]
  constructor
  · intro hd
    rwa [← Text.Case.eq_of_mem_lowerChar (inRanges_of_isSeparator hd).2 hmem]
  · intro hc
    rw [(isCaseless_of_isSeparator hc).lower_eq, List.mem_singleton] at hmem
    rwa [hmem]

end Naming

/-! ### The four conventions -/

namespace Convention

open Naming

/-- The normal form of a convention. -/
def IsNormal : Convention → List Char → Prop
  | .kebab => IsMarked '-'
  | .snake => IsMarked '_'
  | .camel => IsJoined lowerChar
  | .pascal => IsJoined upperChar

theorem isNormal_applyChars (convention : Convention) (cs : List Char) :
    convention.IsNormal (convention.applyChars cs) := by
  cases convention with
  | kebab =>
    have hmarked : IsMarked '-' (markWords '-' cs) := isMarked_markWords (by decide) cs
    rwa [← kebabChars_eq] at hmarked
  | snake =>
    have hmarked : IsMarked '_' (markWords '_' cs) := isMarked_markWords (by decide) cs
    rwa [← snakeChars_eq] at hmarked
  | camel =>
    apply isJoined_mapFirst Text.Case.lowerChar_ne_nil
    · exact fun c d => lowerChar_of_mem_lowerChar
    · exact fun c d => lowerChar_of_isSeparator
    · exact fun c => not_isSeparator_of_mem_joinWords
  | pascal =>
    apply isJoined_mapFirst Text.Case.upperChar_ne_nil
    · exact fun c d => upperChar_of_mem_upperChar
    · exact fun c d => upperChar_of_isSeparator
    · exact fun c => not_isSeparator_of_mem_joinWords

theorem applyChars_of_isNormal {convention : Convention} {cs : List Char}
    (hcs : convention.IsNormal cs) : convention.applyChars cs = cs := by
  cases convention with
  | kebab => exact (kebabChars_eq cs).trans (markWords_of_isMarked hcs)
  | snake => exact (snakeChars_eq cs).trans (markWords_of_isMarked hcs)
  | camel => exact mapFirst_of_isJoined hcs
  | pascal => exact mapFirst_of_isJoined hcs

/-- The normal forms are the names that are left as they are. -/
theorem applyChars_eq_self_iff (convention : Convention) (cs : List Char) :
    convention.applyChars cs = cs ↔ convention.IsNormal cs := by
  constructor
  · intro heq
    have hnormal := isNormal_applyChars convention cs
    rwa [heq] at hnormal
  · exact applyChars_of_isNormal

theorem allows_of_isNormal {convention : Convention} {cs : List Char}
    (hcs : convention.IsNormal cs) {c : Char} (hc : c ∈ cs) : convention.allows c = true := by
  have hmarked : ∀ {mark}, IsMarked mark cs → c.isUpper = false ∧ (c = mark ∨
      c ≠ '-' ∧ c ≠ '_' ∧ Text.isBlank c = false) := by
    intro mark hcs
    obtain ⟨hother, hlower⟩ := hcs c hc
    refine ⟨not_isUpper_of_lowerChar_eq hlower, ?_⟩
    rw [isOther, Bool.and_eq_false_iff, bne_eq_false_iff_eq] at hother
    exact hother.symm.imp_right not_isBlank_of_not_isSeparator
  cases convention with
  | kebab =>
    obtain ⟨hupper, rfl | ⟨-, hlow, hblank⟩⟩ := hmarked hcs
    · decide
    · simp [allows, hupper, hlow, hblank]
  | snake =>
    obtain ⟨hupper, rfl | ⟨hhyphen, -, hblank⟩⟩ := hmarked hcs
    · decide
    · simp [allows, hupper, hhyphen, hblank]
  | camel | pascal =>
    obtain ⟨hhyphen, hlow, hblank⟩ := not_isBlank_of_not_isSeparator (hcs.1 c hc)
    simp [allows, hhyphen, hlow, hblank]

theorem apply_apply (convention : Convention) (name : String) :
    convention.apply (convention.apply name) = convention.apply name := by
  have hnormal := isNormal_applyChars convention name.toList
  rw [apply, apply, String.toList_ofList, (applyChars_eq_self_iff convention _).mpr hnormal]

end Convention

/-! ### Type names -/

namespace Naming

/-- No hyphen and no underscore stands before a small letter. -/
def HasJoinedSegments (cs : List Char) : Prop :=
  cs.IsChain fun a b => (isHyphenOrLow a && b.isLower) = false

theorem HasJoinedSegments.append {front cs : List Char} (hcs : HasJoinedSegments cs)
    (hfront : ∀ c ∈ front, isHyphenOrLow c = false) : HasJoinedSegments (front ++ cs) := by
  induction front with
  | nil => exact hcs
  | cons c front ih =>
    obtain ⟨hc, hfront⟩ := List.forall_mem_cons.mp hfront
    apply List.IsChain.cons (ih hfront)
    intro d hd
    rw [hc, Bool.false_and]

theorem joinSegments_of_hasJoinedSegments {cs : List Char} (hcs : HasJoinedSegments cs) :
    joinSegments cs = cs := by
  fun_induction joinSegments cs with
  | case1 a b rest hdropped ih =>
    obtain ⟨hkept, -⟩ := List.isChain_cons_cons.mp hcs
    rw [hdropped] at hkept
    cases hkept
  | case2 a b rest hkept ih => rw [ih (List.isChain_cons_cons.mp hcs).2]
  | case3 => rfl

/-- A capital that has replaced a small letter does not bring a new segment about. -/
theorem head?_joinSegments {b d : Char} {cs : List Char}
    (hd : d ∈ (joinSegments (b :: cs)).head?) : d = b ∨ d.isLower = false := by
  cases cs with
  | nil => exact .inl (Option.some_inj.mp hd).symm
  | cons c cs =>
    rw [joinSegments] at hd
    split at hd
    case isTrue hdropped =>
      have hsmall := (Bool.and_eq_true_iff.mp hdropped).2
      rw [← Option.some_inj.mp hd]
      exact .inr (isCapitalOf_toUpper hsmall).isLower_eq.1
    case isFalse => exact .inl (Option.some_inj.mp hd).symm

theorem hasJoinedSegments_joinSegments (cs : List Char) : HasJoinedSegments (joinSegments cs) := by
  fun_induction joinSegments cs with
  | case1 a b rest hdropped ih =>
    have hcapital := isCapitalOf_toUpper (Bool.and_eq_true_iff.mp hdropped).2
    have hsegment : isHyphenOrLow b.toUpper = false :=
      (Bool.or_eq_false_iff.mp hcapital.notSeparator.1).1
    apply List.IsChain.cons ih
    intro d hd
    rw [hsegment, Bool.false_and]
  | case2 a b rest hkept ih =>
    apply List.IsChain.cons ih
    intro d hd
    rw [Bool.not_eq_true] at hkept
    rcases head?_joinSegments hd with rfl | hsmall
    · exact hkept
    · rw [hsmall, Bool.and_false]
  | case3 cs hcs =>
    rcases cs with _ | ⟨a, _ | ⟨b, rest⟩⟩
    · exact List.IsChain.nil
    · exact List.IsChain.singleton a
    · exact absurd rfl (hcs a b rest)

theorem typeNameChars_typeNameChars (cs : List Char) :
    typeNameChars (typeNameChars cs) = typeNameChars cs := by
  cases cs with
  | nil => rfl
  | cons c cs =>
    obtain ⟨u, us, hupper⟩ := List.exists_cons_of_ne_nil (Text.Case.upperChar_ne_nil c)
    have hmem : ∀ d ∈ u :: us, d ∈ upperChar c := fun d hd => hupper ▸ hd
    have hu : upperChar u = [u] := upperChar_of_mem_upperChar (hmem u List.mem_cons_self)
    -- only a letter has a capital form of several characters, and none of them is a separator
    have hus : ∀ d ∈ us, isHyphenOrLow d = false := by
      intro d hd
      by_contra hsegment
      have hseparator : isSeparator d = true := by
        rw [isSeparator, Bool.eq_true_of_not_eq_false hsegment, Bool.true_or]
      rw [upperChar_of_isSeparator (hmem d (List.mem_cons_of_mem u hd))] at hseparator
      rw [(isCaseless_of_isSeparator hseparator).upper_eq, List.cons.injEq] at hupper
      rw [← hupper.2] at hd
      cases hd
    have hchain : HasJoinedSegments (us ++ joinSegments cs) :=
      (hasJoinedSegments_joinSegments cs).append hus
    calc typeNameChars (typeNameChars (c :: cs))
      _ = typeNameChars (u :: (us ++ joinSegments cs)) := by rw [typeNameChars, hupper]; rfl
      _ = u :: (us ++ joinSegments cs) := by
        rw [typeNameChars, hu, joinSegments_of_hasJoinedSegments hchain]
        rfl
      _ = typeNameChars (c :: cs) := by rw [typeNameChars, hupper]; rfl

/-- **A second writing changes nothing.** A written name has only the characters of its convention,
a convention leaves its own names as they are, and so do type names. -/
theorem writing_is_idempotent (convention : Convention) (name : String) :
    convention.apply (convention.apply name) = convention.apply name ∧
      (∀ c ∈ (convention.apply name).toList, convention.allows c = true) ∧
      typeName (typeName name) = typeName name := by
  refine ⟨convention.apply_apply name, ?_, ?_⟩
  · intro c hc
    rw [Convention.apply, String.toList_ofList] at hc
    exact Convention.allows_of_isNormal (convention.isNormal_applyChars name.toList) hc
  · rw [typeName, typeName, String.toList_ofList, typeNameChars_typeNameChars]

end Naming

end RamlSchema
