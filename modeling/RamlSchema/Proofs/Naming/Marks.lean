import RamlSchema.Proofs.Naming

/-!
# Words with marks between them

In two conventions a name is its words in small letters with a mark between them, and every other
separator becomes a mark, too. What a character is written as depends on its neighbours only where a
word ends, and for a sigma on whether there are letters around it.
-/

namespace RamlSchema.Naming

open Text.Case (IsCaseless eq_of_mem_lowerIn inRanges inRanges_blankRanges isCaseless_of_isBlank
  length_lowerIn lowerChar lowerChars lowerFrom lowerFrom_cons lowerIn lowerIn_nil_left
  lowerIn_ne_nil lowerIn_of_ne nextIsCased noCapitals noSmallLetters sigmaForm)

/-! ### Marked words -/

def isOther (mark c : Char) : Bool := isSeparator c && c != mark

/-- The words of a name in small letters with marks between them. -/
def markWords (mark : Char) (cs : List Char) : List Char :=
  collapse (isOther mark) mark false (lowerChars (splitHumps mark cs))

theorem isOther_eq {mark other : Char} (hmarks : ∀ c, isHyphenOrLow c = (c == mark || c == other))
    (hne : mark ≠ other) (hmark : Text.isBlank mark = false) (c : Char) :
    isOther mark c = (c == other || Text.isBlank c) := by
  rw [isOther, isSeparator, hmarks]
  by_cases hc : c = mark
  · subst hc
    simp [bne, hne, hmark]
  · simp [bne, beq_false_of_ne hc]

theorem kebabChars_eq (cs : List Char) : kebabChars cs = markWords '-' cs := by
  have hkind : ∀ c, isOther '-' c = (c == '_' || Text.isBlank c) :=
    isOther_eq (fun _ => rfl) (by decide) (by decide)
  rw [markWords, funext hkind]
  rfl

theorem snakeChars_eq (cs : List Char) : snakeChars cs = markWords '_' cs := by
  have hkind : ∀ c, isOther '_' c = (c == '-' || Text.isBlank c) :=
    isOther_eq (fun _ => Bool.or_comm _ _) (by decide) (by decide)
  rw [markWords, funext hkind]
  rfl

/-- What follows the character `a` in a name, with marks where words end. -/
def humps (mark a : Char) : List Char → List Char
  | [] => []
  | c :: cs => (if isHump a c then [mark] else []) ++ c :: humps mark c cs

theorem humps_cons_of_not_hump {mark a c : Char} (hhump : isHump a c = false) (cs : List Char) :
    humps mark a (c :: cs) = c :: humps mark c cs := by
  rw [humps, hhump]
  rfl

theorem splitHumps_cons (mark a : Char) (cs : List Char) :
    splitHumps mark (a :: cs) = a :: humps mark a cs := by
  induction cs generalizing a with
  | nil => rfl
  | cons c cs ih =>
    rw [splitHumps, ih, humps]
    split <;> rfl

/-! ### Separators -/

theorem isCaseless_of_isSeparator {c : Char} (hc : isSeparator c = true) : IsCaseless c := by
  rw [isSeparator, Bool.or_eq_true, isHyphenOrLow, Bool.or_eq_true, beq_iff_eq, beq_iff_eq] at hc
  rcases hc with (rfl | rfl) | hc
  · exact ⟨by decide, by decide, by rfl, by decide +kernel⟩
  · exact ⟨by decide, by decide, by rfl, by decide +kernel⟩
  · exact isCaseless_of_isBlank hc

/-- No case form is a separator but that of a separator. -/
theorem inRanges_of_isSeparator {c : Char} (hc : isSeparator c = true) :
    inRanges noCapitals c = true ∧ inRanges noSmallLetters c = true := by
  rw [isSeparator, Bool.or_eq_true, isHyphenOrLow, Bool.or_eq_true, beq_iff_eq, beq_iff_eq] at hc
  rcases hc with (rfl | rfl) | hc
  · decide
  · decide
  · rw [← inRanges_blankRanges] at hc
    unfold inRanges at hc ⊢
    simp only [noCapitals, noSmallLetters, List.any_cons, hc, Bool.or_true, and_self]

theorem lowerIn_of_isCaseless {c : Char} (hc : IsCaseless c) (before after : List Char) :
    lowerIn before c after = [c] := by
  have hne : c ≠ Text.Case.capitalSigma := by
    rintro rfl
    exact absurd hc.isCased_eq (by decide)
  rw [lowerIn_of_ne hne, hc.lower_eq]

theorem nextIsCased_cons (c : Char) (cs : List Char) :
    nextIsCased (c :: cs) =
      if Text.Case.isIgnorable c then nextIsCased cs else Text.Case.isCased c := by
  unfold nextIsCased
  cases hc : Text.Case.isIgnorable c <;> simp [hc]

/-! ### One character -/

variable {mark : Char}

theorem collapse_append {kind : Char → Bool} {within : Bool} {xs : List Char} (hne : xs ≠ [])
    (hxs : ∀ x ∈ xs, kind x = false) (ys : List Char) :
    collapse kind mark within (xs ++ ys) = xs ++ collapse kind mark false ys := by
  induction xs generalizing within with
  | nil => exact absurd rfl hne
  | cons x xs ih =>
    obtain ⟨hx, hxs⟩ := List.forall_mem_cons.mp hxs
    rw [List.cons_append, collapse, hx, if_neg Bool.false_ne_true, List.cons_append]
    cases xs with
    | nil => rfl
    | cons y xs => rw [ih (List.cons_ne_nil y xs) hxs]

/-- What a character is written as. `within` says that a separator stands before it. -/
def written (mark : Char) (within : Bool) (before : List Char) (c : Char) (after : List Char) :
    List Char :=
  if isOther mark c then if within then [] else [mark] else lowerIn before c after

theorem collapse_lowerFrom_cons (within : Bool) (before : List Char) (c : Char) (cs : List Char) :
    collapse (isOther mark) mark within (lowerFrom before (c :: cs)) =
      written mark within before c cs ++
        collapse (isOther mark) mark (isOther mark c) (lowerFrom (c :: before) cs) := by
  rw [lowerFrom_cons, written]
  by_cases hc : isOther mark c = true
  · have hcaseless : IsCaseless c := by
      rw [isOther, Bool.and_eq_true] at hc
      exact isCaseless_of_isSeparator hc.1
    rw [lowerIn_of_isCaseless hcaseless, hc, List.singleton_append, collapse, if_pos hc, if_pos rfl]
  · have hnone : ∀ x ∈ lowerIn before c cs, isOther mark x = false := by
      intro x hx
      refine Bool.eq_false_iff.mpr fun hother => hc ?_
      have hseparator : isSeparator x = true := by
        rw [isOther, Bool.and_eq_true] at hother
        exact hother.1
      rwa [← eq_of_mem_lowerIn (inRanges_of_isSeparator hseparator).2 hx]
    rw [collapse_append (lowerIn_ne_nil before c cs) hnone, if_neg hc, Bool.eq_false_iff.mpr hc]

theorem written_congr {before before' after after' : List Char} {c : Char} (within : Bool)
    (hbefore : nextIsCased before = nextIsCased before')
    (hafter : c = Text.Case.capitalSigma → nextIsCased after = nextIsCased after') :
    written mark within before c after = written mark within before' c after' := by
  unfold written lowerIn
  split
  · rfl
  · split
    case isTrue hc => rw [sigmaForm, sigmaForm, hbefore, hafter hc]
    case isFalse => rfl

theorem length_written (within : Bool) (before before' : List Char) (c : Char)
    (after after' : List Char) :
    (written mark within before c after).length =
      (written mark within before' c after').length := by
  unfold written
  split
  · rfl
  · exact length_lowerIn ..

/-! ### All characters -/

/-- What is written for the rest of a name behind the characters `before`, the last of which is
`a`. -/
def wordsFrom (mark : Char) (before : List Char) (a : Char) (cs : List Char) : List Char :=
  collapse (isOther mark) mark (isOther mark a) (lowerFrom before (humps mark a cs))

theorem markWords_cons (c : Char) (cs : List Char) :
    markWords mark (c :: cs) =
      (if isOther mark c then [mark] else lowerChar c) ++ wordsFrom mark [c] c cs := by
  rw [markWords, lowerChars, splitHumps_cons, collapse_lowerFrom_cons, written, lowerIn_nil_left]
  rfl

theorem wordsFrom_cons_of_hump (hmark : isHyphenOrLow mark = true) {before : List Char} {a c : Char}
    (hhump : isHump a c = true) (cs : List Char) :
    wordsFrom mark before a (c :: cs) =
      mark :: (written mark false (mark :: before) c (humps mark c cs) ++
        wordsFrom mark (c :: mark :: before) c cs) := by
  have hself : isOther mark mark = false := by simp [isOther]
  have hcaseless : IsCaseless mark := isCaseless_of_isSeparator (by simp [isSeparator, hmark])
  rw [wordsFrom, humps, if_pos hhump, List.singleton_append, collapse_lowerFrom_cons, written,
    hself, if_neg Bool.false_ne_true, lowerIn_of_isCaseless hcaseless, collapse_lowerFrom_cons]
  rfl

theorem wordsFrom_cons_of_not_hump {before : List Char} {a c : Char} (hhump : isHump a c = false)
    (cs : List Char) :
    wordsFrom mark before a (c :: cs) =
      written mark (isOther mark a) before c (humps mark c cs) ++
        wordsFrom mark (c :: before) c cs := by
  rw [wordsFrom, humps_cons_of_not_hump hhump, collapse_lowerFrom_cons]
  rfl

/-! ### Characters that stay -/

variable {cs : List Char} {d : Char}

theorem mem_splitHumps_of_mem (hmem : d ∈ cs) : d ∈ splitHumps mark cs := by
  fun_induction splitHumps mark cs with
  | case1 a b rest hhump ih =>
    rw [List.mem_cons] at hmem
    simp only [List.mem_cons]
    exact hmem.imp_right fun h => .inr (ih h)
  | case2 a b rest hhump ih =>
    rw [List.mem_cons] at hmem ⊢
    exact hmem.imp_right ih
  | case3 cs hcs => exact hmem

theorem mem_lowerFrom_of_mem (hd : IsCaseless d) (hmem : d ∈ cs) (before : List Char) :
    d ∈ lowerFrom before cs := by
  induction cs generalizing before with
  | nil => exact hmem
  | cons c cs ih =>
    rw [lowerFrom_cons, List.mem_append]
    rcases List.mem_cons.mp hmem with rfl | hmem
    · exact .inl (by rw [lowerIn_of_isCaseless hd]; exact List.mem_singleton_self d)
    · exact .inr (ih hmem _)

theorem mem_collapse_of_mem {kind : Char → Bool} (hd : kind d = false) (hmem : d ∈ cs)
    (within : Bool) : d ∈ collapse kind mark within cs := by
  induction cs generalizing within with
  | nil => exact hmem
  | cons c cs ih =>
    rw [collapse]
    rcases List.mem_cons.mp hmem with rfl | hmem
    · rw [hd]
      exact List.mem_cons_self
    · split
      · exact List.mem_append_right _ (ih hmem _)
      · exact List.mem_cons_of_mem _ (ih hmem _)

theorem mem_joinWords_of_mem (hd : IsCaseless d) (hword : isSeparator d = false) (hmem : d ∈ cs)
    (pending : Bool) : d ∈ joinWords pending cs := by
  induction cs generalizing pending with
  | nil => exact hmem
  | cons c cs ih =>
    rw [joinWords]
    rcases List.mem_cons.mp hmem with rfl | hmem
    · rw [hword, if_neg Bool.false_ne_true, hd.upper_eq, ite_self]
      exact List.mem_cons_self
    · split
      · exact ih hmem _
      · exact List.mem_append_right _ (ih hmem _)

theorem mem_mapFirst_of_mem {f : Char → List Char} (hf : f d = [d]) (hmem : d ∈ cs) :
    d ∈ mapFirst f cs := by
  cases cs with
  | nil => exact hmem
  | cons c cs =>
    rw [mapFirst, List.mem_append]
    rcases List.mem_cons.mp hmem with rfl | hmem
    · exact .inl (by rw [hf]; exact List.mem_singleton_self d)
    · exact .inr hmem

/-- What has no case and is no separator is written as it is. -/
theorem mem_apply_of_mem (convention : Convention) {name : String} (hd : IsCaseless d)
    (hword : isSeparator d = false) (hmem : d ∈ name.toList) :
    d ∈ (convention.apply name).toList := by
  have hkind : ∀ mark, isOther mark d = false := by
    intro mark
    rw [isOther, hword, Bool.false_and]
  have hmarks : ∀ mark, d ∈ markWords mark name.toList := fun mark =>
    mem_collapse_of_mem (hkind mark) (mem_lowerFrom_of_mem hd (mem_splitHumps_of_mem hmem) []) false
  have hwords : d ∈ joinWords false name.toList := mem_joinWords_of_mem hd hword hmem false
  rw [Convention.apply, String.toList_ofList]
  cases convention with
  | kebab =>
    rw [Convention.applyChars, kebabChars_eq]
    exact hmarks '-'
  | camel => exact mem_mapFirst_of_mem hd.lower_eq hwords
  | pascal => exact mem_mapFirst_of_mem hd.upper_eq hwords
  | snake =>
    rw [Convention.applyChars, snakeChars_eq]
    exact hmarks '_'

end RamlSchema.Naming
