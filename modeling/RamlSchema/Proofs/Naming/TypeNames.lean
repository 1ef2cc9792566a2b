import RamlSchema.Proofs.Naming.Marks

/-!
# Names that go through type names

A file is referred to by its own name, but the type in it is called after the file with the
separators before small letters taken out. The two become the same name in a convention exactly if
every word that starts behind such a separator can still be told from the one before it.
-/

namespace RamlSchema.Naming

open Text.Case (ComesBack capitalSigma comesBack_of_head? eq_of_mem_upperChar forall_ascii
  head?_lowerChars inRanges isCased isIgnorable lowerChar lowerChar_ne_nil lowerChars_singleton
  lowerIn_of_ne nextIsCased noCapitals upperChar upperChar_ne_nil upperChar_of_mem_upperChar)

/-! ### Letters and their capitals -/

/-- A small letter of ASCII and its capital. -/
structure IsCapitalOf (capital small : Char) : Prop where
  isUpper_eq : capital.isUpper = true ∧ small.isUpper = false
  isLower_eq : capital.isLower = false ∧ small.isLower = true
  isDigit_eq : capital.isDigit = false
  upper_eq : upperChar capital = [capital] ∧ upperChar small = [capital]
  lower_eq : lowerChar capital = [small] ∧ lowerChar small = [small]
  isCased_eq : isCased capital = true ∧ isCased small = true
  isIgnorable_eq : isIgnorable capital = false ∧ isIgnorable small = false
  notSeparator : isSeparator capital = false ∧ isSeparator small = false
  ne_sigma : capital ≠ capitalSigma ∧ small ≠ capitalSigma

theorem toNat_lt_of_isLower {b : Char} (hb : b.isLower = true) : b.toNat < 0x80 := by
  have hle : b.val ≤ 'z'.val := of_decide_eq_true (Bool.and_eq_true_iff.mp hb).2
  exact Nat.lt_of_le_of_lt (UInt32.le_iff_toNat_le.mp hle) (by decide)

theorem forall_small {p : Char → Prop}
    (hall : ∀ n < 0x80, (Char.ofNat n).isLower = true → p (Char.ofNat n)) {b : Char}
    (hb : b.isLower = true) : p b :=
  forall_ascii (p := fun b => b.isLower = true → p b) hall (toNat_lt_of_isLower hb) hb

theorem isCapitalOf_toUpper {b : Char} (hb : b.isLower = true) : IsCapitalOf b.toUpper b where
  isUpper_eq := forall_small (p := fun b => b.toUpper.isUpper = true ∧ b.isUpper = false)
    (by decide +kernel) hb
  isLower_eq := forall_small (p := fun b => b.toUpper.isLower = false ∧ b.isLower = true)
    (by decide +kernel) hb
  isDigit_eq := forall_small (p := fun b => b.toUpper.isDigit = false) (by decide +kernel) hb
  upper_eq := forall_small (p := fun b => upperChar b.toUpper = [b.toUpper] ∧
    upperChar b = [b.toUpper]) (by decide +kernel) hb
  lower_eq := forall_small (p := fun b => lowerChar b.toUpper = [b] ∧ lowerChar b = [b])
    (by decide +kernel) hb
  isCased_eq := forall_small (p := fun b => isCased b.toUpper = true ∧ isCased b = true)
    (by decide +kernel) hb
  isIgnorable_eq := forall_small (p := fun b => isIgnorable b.toUpper = false ∧
    isIgnorable b = false) (by decide +kernel) hb
  notSeparator := forall_small (p := fun b => isSeparator b.toUpper = false ∧
    isSeparator b = false) (by decide +kernel) hb
  ne_sigma := forall_small (p := fun b => b.toUpper ≠ capitalSigma ∧ b ≠ capitalSigma)
    (by decide +kernel) hb

theorem isCapitalOf_toLower {c : Char} (hc : c.isUpper = true) : IsCapitalOf c c.toLower := by
  have hcode : c.toNat < 0x80 := by
    have hle : c.val ≤ 'Z'.val := (of_decide_eq_true hc).2
    exact Nat.lt_of_le_of_lt (UInt32.le_iff_toNat_le.mp hle) (by decide)
  obtain ⟨hlower, hupper⟩ : c.toLower.isLower = true ∧ c.toLower.toUpper = c :=
    forall_ascii (p := fun c => c.isUpper = true → c.toLower.isLower = true ∧ c.toLower.toUpper = c)
      (by decide +kernel) hcode hc
  have hcapital := isCapitalOf_toUpper hlower
  rwa [hupper] at hcapital

/-- A small letter or a digit, behind which a capital starts a new word. -/
def endsWord (c : Char) : Bool := c.isLower || c.isDigit

theorem toNat_lt_of_endsWord {c : Char} (hc : endsWord c = true) : c.toNat < 0x80 := by
  rw [endsWord, Bool.or_eq_true] at hc
  rcases hc with hc | hc
  · exact toNat_lt_of_isLower hc
  · simp only [Char.isDigit, Bool.and_eq_true, decide_eq_true_eq, UInt32.le_iff_toNat_le] at hc
    exact Nat.lt_of_le_of_lt hc.2 (by decide)

theorem isSeparator_eq_false_of_endsWord {c : Char} (hc : endsWord c = true) :
    isSeparator c = false :=
  forall_ascii (p := fun c => endsWord c = true → isSeparator c = false) (by decide +kernel)
    (toNat_lt_of_endsWord hc) hc

theorem isIgnorable_eq_false_of_endsWord {c : Char} (hc : endsWord c = true) :
    isIgnorable c = false :=
  forall_ascii (p := fun c => endsWord c = true → isIgnorable c = false) (by decide +kernel)
    (toNat_lt_of_endsWord hc) hc

theorem inRanges_of_endsWord {c : Char} (hc : endsWord c = true) : inRanges noCapitals c = true :=
  forall_ascii (p := fun c => endsWord c = true → inRanges noCapitals c = true) (by decide +kernel)
    (toNat_lt_of_endsWord hc) hc

theorem upperChar_of_endsWord {c : Char} (hc : endsWord c = true) (hlower : c.isLower = false) :
    upperChar c = [c] :=
  forall_ascii (p := fun c => endsWord c = true → c.isLower = false → upperChar c = [c])
    (by decide +kernel) (toNat_lt_of_endsWord hc) hc hlower

variable {mark capital small : Char}

theorem isOther_eq_false_of_isSeparator {c : Char} (hc : isSeparator c = false) :
    isOther mark c = false := by
  rw [isOther, hc, Bool.false_and]

/-- A small letter and its capital are written as the small letter. -/
theorem written_letter (h : IsCapitalOf capital small) (within : Bool) (before after : List Char) :
    written mark within before capital after = [small] ∧
      written mark within before small after = [small] := by
  obtain ⟨hcapital, hsmall⟩ := h.notSeparator
  rw [written, written, isOther_eq_false_of_isSeparator hcapital,
    isOther_eq_false_of_isSeparator hsmall, if_neg Bool.false_ne_true, if_neg Bool.false_ne_true,
    lowerIn_of_ne h.ne_sigma.1, lowerIn_of_ne h.ne_sigma.2]
  exact h.lower_eq

theorem nextIsCased_letter (h : IsCapitalOf capital small) (before before' : List Char) :
    nextIsCased (capital :: before) = true ∧ nextIsCased (small :: before') = true := by
  rw [nextIsCased_cons, nextIsCased_cons, h.isIgnorable_eq.1, h.isIgnorable_eq.2]
  exact h.isCased_eq

theorem ne_mark_of_isLower (hmark : isHyphenOrLow mark = true) {b : Char} (hb : b.isLower = true) :
    b ≠ mark := by
  rintro rfl
  rw [isHyphenOrLow, Bool.or_eq_true, beq_iff_eq, beq_iff_eq] at hmark
  rcases hmark with rfl | rfl <;> exact absurd hb (by decide)

theorem isHump_of_isHyphenOrLow {d : Char} (hd : isHyphenOrLow d = true) (a b : Char) :
    isHump a d = false ∧ isHump d b = false := by
  rw [isHyphenOrLow, Bool.or_eq_true, beq_iff_eq, beq_iff_eq] at hd
  rcases hd with rfl | rfl <;> simp [isHump]

/-- A hyphen or underscore is written as a mark, unless it is one of several separators. -/
theorem written_of_isHyphenOrLow {d : Char} (hd : isHyphenOrLow d = true) (within : Bool)
    (before after : List Char) :
    written mark within before d after = if within && isOther mark d then [] else [mark] := by
  have hseparator : isSeparator d = true := by rw [isSeparator, hd, Bool.true_or]
  rw [written]
  cases hother : isOther mark d with
  | true => cases within <;> rfl
  | false =>
    rw [isOther, hseparator, Bool.true_and, bne_eq_false_iff_eq] at hother
    rw [if_neg Bool.false_ne_true, lowerIn_of_isCaseless (isCaseless_of_isSeparator hseparator),
      Bool.and_false, hother]
    rfl

/-! ### A name and its type name side by side -/

/-- A name behind `before`, which ends with `a`, and its type name behind `before'`, which ends with
`a'`. The two characters differ if the second is the capital of the first, `capped`. -/
structure InStep (mark : Char) (capped : Bool) (a a' : Char) (before before' : List Char) :
    Prop where
  isHump_eq : ∀ c, isHump a' c = (!capped && isHump a c)
  isOther_eq : isOther mark a' = isOther mark a
  isLower_of_capped : capped = true → a.isLower = true
  nextIsCased_eq : nextIsCased before' = nextIsCased before

variable {capped : Bool} {a a' : Char} {before before' : List Char}

theorem inStep_same (c : Char) (hcased : nextIsCased before' = nextIsCased before) :
    InStep mark false c c before before' :=
  ⟨fun _ => rfl, rfl, nofun, hcased⟩

/-- A small letter in the name, and its capital in the type name. -/
theorem inStep_capital (h : IsCapitalOf capital small) (before before' : List Char) :
    InStep mark true small capital (small :: before) (capital :: before') where
  isHump_eq c := by rw [isHump, h.isLower_eq.1, h.isDigit_eq]; rfl
  isOther_eq := by
    rw [isOther_eq_false_of_isSeparator h.notSeparator.1,
      isOther_eq_false_of_isSeparator h.notSeparator.2]
  isLower_of_capped _ := h.isLower_eq.2
  nextIsCased_eq := by
    obtain ⟨hcapital, hsmall⟩ := nextIsCased_letter h before' before
    rw [hcapital, hsmall]

theorem nextIsCased_cons_congr (c : Char) (hcased : nextIsCased before' = nextIsCased before) :
    nextIsCased (c :: before') = nextIsCased (c :: before) := by
  rw [nextIsCased_cons, nextIsCased_cons, hcased]

theorem isUpper_of_isHump {c : Char} (hhump : isHump a c = true) :
    endsWord a = true ∧ c.isUpper = true := by
  rwa [isHump, Bool.and_eq_true] at hhump

/-- A character that both names have. The names stay the same only if it is no capital behind a
letter that became one. -/
theorem wordsFrom_kept (hmark : isHyphenOrLow mark = true)
    (h : InStep mark capped a a' before before') (c : Char) (cs cs' : List Char) :
    ∃ next next', InStep mark false c c next next' ∧
      (wordsFrom mark before' a' (c :: cs') = wordsFrom mark before a (c :: cs) →
        (capped && c.isUpper) = false ∧ wordsFrom mark next' c cs' = wordsFrom mark next c cs) ∧
      ((capped && c.isUpper) = false →
        (c = capitalSigma → nextIsCased (humps mark c cs') = nextIsCased (humps mark c cs)) →
        wordsFrom mark next' c cs' = wordsFrom mark next c cs →
          wordsFrom mark before' a' (c :: cs') = wordsFrom mark before a (c :: cs)) := by
  have hhump' := h.isHump_eq c
  cases hhump : isHump a c with
  | true =>
    obtain ⟨-, hupper⟩ := isUpper_of_isHump hhump
    rw [wordsFrom_cons_of_hump hmark hhump]
    cases capped with
    | true =>
      -- only the name has a mark here
      rw [Bool.not_true, Bool.false_and] at hhump'
      have hcapital := isCapitalOf_toLower hupper
      obtain ⟨hcased, -⟩ := nextIsCased_letter hcapital before' []
      obtain ⟨hcased', -⟩ := nextIsCased_letter hcapital (mark :: before) []
      refine ⟨c :: mark :: before, c :: before', inStep_same c (hcased.trans hcased'.symm), ?_, ?_⟩
      · intro heq
        rw [wordsFrom_cons_of_not_hump hhump', (written_letter hcapital _ _ _).1] at heq
        exact absurd (List.cons.inj heq).1 (ne_mark_of_isLower hmark hcapital.isLower_eq.2)
      · intro hkept
        rw [hupper] at hkept
        cases hkept
    | false =>
      rw [hhump, Bool.not_false, Bool.true_and] at hhump'
      rw [wordsFrom_cons_of_hump hmark hhump']
      have hnext := nextIsCased_cons_congr mark h.nextIsCased_eq
      refine ⟨c :: mark :: before, c :: mark :: before',
        inStep_same c (nextIsCased_cons_congr c hnext), ?_, ?_⟩
      · intro heq
        have happend := (List.cons.inj heq).2
        exact ⟨rfl, (List.append_inj happend (length_written ..)).2⟩
      · intro _ hafter htail
        rw [htail, written_congr false hnext hafter]
  | false =>
    rw [hhump, Bool.and_false] at hhump'
    rw [wordsFrom_cons_of_not_hump hhump, wordsFrom_cons_of_not_hump hhump', h.isOther_eq]
    refine ⟨c :: before, c :: before', inStep_same c (nextIsCased_cons_congr c h.nextIsCased_eq),
      ?_, ?_⟩
    · intro heq
      refine ⟨?_, (List.append_inj heq (length_written ..)).2⟩
      rw [Bool.and_eq_false_iff, ← Bool.not_eq_true, ← Bool.not_eq_true, ← not_and_or]
      rintro ⟨hcapped, hupper⟩
      rw [isHump, h.isLower_of_capped hcapped, hupper] at hhump
      cases hhump
    · intro _ hafter htail
      rw [htail, written_congr _ h.nextIsCased_eq hafter]

/-- A separator that the type name does without. The names stay the same only if the letter behind
it is still told from what stands before, or if the separator itself was not written. -/
theorem wordsFrom_dropped (hmark : isHyphenOrLow mark = true)
    (h : InStep mark capped a a' before before') {d b : Char} (hd : isHyphenOrLow d = true)
    (hb : b.isLower = true) (cs cs' : List Char) :
    ∃ next next', InStep mark true b b.toUpper next next' ∧
      (wordsFrom mark before' a' (b.toUpper :: cs') = wordsFrom mark before a (d :: b :: cs) ↔
        (!capped && endsWord a || isOther mark a && isOther mark d) = true ∧
          wordsFrom mark next' b.toUpper cs' = wordsFrom mark next b cs) := by
  have hcapital := isCapitalOf_toUpper hb
  have hhump : isHump a d = false := (isHump_of_isHyphenOrLow hd a b).1
  have hhump' : isHump d b = false := (isHump_of_isHyphenOrLow hd a b).2
  have hname : wordsFrom mark before a (d :: b :: cs) =
      (if isOther mark a && isOther mark d then [] else [mark]) ++
        b :: wordsFrom mark (b :: d :: before) b cs := by
    rw [wordsFrom_cons_of_not_hump hhump, wordsFrom_cons_of_not_hump hhump',
      written_of_isHyphenOrLow hd, (written_letter hcapital _ _ _).2, List.singleton_append]
  have hcapped : isHump a' b.toUpper = (!capped && endsWord a) := by
    rw [h.isHump_eq, isHump, hcapital.isUpper_eq.1, Bool.and_true, endsWord]
  -- The capital begins a word of the type name only behind the end of one.
  cases hboundary : !capped && endsWord a with
  | true =>
    have hother : isOther mark a = false := by
      rw [Bool.and_eq_true] at hboundary
      exact isOther_eq_false_of_isSeparator (isSeparator_eq_false_of_endsWord hboundary.2)
    refine ⟨b :: d :: before, b.toUpper :: mark :: before', inStep_capital hcapital _ _, ?_⟩
    rw [hname, hother, wordsFrom_cons_of_hump hmark (hcapped.trans hboundary),
      (written_letter hcapital _ _ _).1]
    simp
  | false =>
    refine ⟨b :: d :: before, b.toUpper :: before', inStep_capital hcapital _ _, ?_⟩
    rw [hname, wordsFrom_cons_of_not_hump (hcapped.trans hboundary),
      (written_letter hcapital _ _ _).1]
    cases isOther mark a && isOther mark d with
    | true => simp
    | false => simp [ne_mark_of_isLower hmark hb]

/-! ### Whole names -/

/-- Whether the words of a name behind the character `a` can still be told from each other in the
type name, where `capped` says that `a` has become a capital. -/
def keepsWords (mark : Char) (capped : Bool) (a : Char) : List Char → Bool
  | d :: b :: rest =>
    if isHyphenOrLow d && b.isLower then
      (!capped && endsWord a || isOther mark a && isOther mark d) && keepsWords mark true b rest
    else !(capped && d.isUpper) && keepsWords mark false d (b :: rest)
  | [c] => !(capped && c.isUpper)
  | [] => true

/-- Where no word ends, the characters that are passed over and the next one stay as they are. -/
theorem nextIsCased_humps_joinSegments {c : Char} {cs : List Char} (hword : endsWord c = false)
    (hother : isOther mark c = false) (hkeeps : keepsWords mark false c cs = true) :
    nextIsCased (humps mark c (joinSegments cs)) = nextIsCased (humps mark c cs) := by
  have hhump : ∀ d, isHump c d = false := by
    intro d
    rw [isHump, ← endsWord, hword, Bool.false_and]
  fun_induction joinSegments cs generalizing c with
  | case1 d b rest hdropped ih =>
    rw [keepsWords, if_pos hdropped, hword, hother] at hkeeps
    cases hkeeps
  | case2 d b rest hkept ih =>
    rw [keepsWords, if_neg hkept, Bool.and_eq_true] at hkeeps
    rw [humps_cons_of_not_hump (hhump d), humps_cons_of_not_hump (hhump d), nextIsCased_cons,
      nextIsCased_cons]
    cases hignorable : isIgnorable d with
    | false => rfl
    | true =>
      have hword' : endsWord d = false := by
        refine Bool.eq_false_iff.mpr fun hends => ?_
        rw [isIgnorable_eq_false_of_endsWord hends] at hignorable
        cases hignorable
      have hseparator : isSeparator d = false := by
        refine Bool.eq_false_iff.mpr fun hseparator => ?_
        rw [(isCaseless_of_isSeparator hseparator).isIgnorable_eq] at hignorable
        cases hignorable
      refine ih hword' (isOther_eq_false_of_isSeparator hseparator) hkeeps.2 fun e => ?_
      rw [isHump, ← endsWord, hword', Bool.false_and]
  | case3 cs hcs => rfl

theorem wordsFrom_kept_joinSegments_iff (hmark : isHyphenOrLow mark = true)
    (h : InStep mark capped a a' before before') (c : Char) (cs : List Char)
    (htail : ∀ {next next'}, InStep mark false c c next next' →
      (wordsFrom mark next' c (joinSegments cs) = wordsFrom mark next c cs ↔
        keepsWords mark false c cs = true)) :
    wordsFrom mark before' a' (c :: joinSegments cs) = wordsFrom mark before a (c :: cs) ↔
      (!(capped && c.isUpper) && keepsWords mark false c cs) = true := by
  obtain ⟨next, next', hnext, hto, hback⟩ := wordsFrom_kept hmark h c cs (joinSegments cs)
  rw [Bool.and_eq_true, Bool.not_eq_true', ← htail hnext]
  refine ⟨hto, fun ⟨hcapital, heq⟩ => hback hcapital ?_ heq⟩
  rintro rfl
  have hother : isOther mark capitalSigma = false :=
    isOther_eq_false_of_isSeparator (by decide +kernel)
  exact nextIsCased_humps_joinSegments (by decide +kernel) hother ((htail hnext).mp heq)

/-- The rest of a name and of its type name are written alike exactly if the words can be told from
each other. -/
theorem wordsFrom_joinSegments_iff (hmark : isHyphenOrLow mark = true) {cs : List Char}
    (h : InStep mark capped a a' before before') :
    wordsFrom mark before' a' (joinSegments cs) = wordsFrom mark before a cs ↔
      keepsWords mark capped a cs = true := by
  fun_induction joinSegments cs generalizing capped a a' before before' with
  | case1 d b rest hdropped ih =>
    obtain ⟨hd, hb⟩ := Bool.and_eq_true_iff.mp hdropped
    obtain ⟨next, next', hnext, hiff⟩ := wordsFrom_dropped hmark h hd hb rest (joinSegments rest)
    rw [hiff, keepsWords, if_pos hdropped, Bool.and_eq_true]
    exact and_congr_right fun _ => ih hnext
  | case2 d b rest hkept ih =>
    rw [keepsWords, if_neg hkept]
    exact wordsFrom_kept_joinSegments_iff hmark h d (b :: rest) fun hnext => ih hnext
  | case3 cs hcs =>
    match cs, hcs with
    | [], _ => exact iff_of_true rfl rfl
    | [c], _ =>
      have hlast := wordsFrom_kept_joinSegments_iff hmark h c [] fun _ => iff_of_true rfl rfl
      rwa [keepsWords, Bool.and_true] at hlast
    | c :: d :: rest, hcs => exact absurd rfl (hcs c d rest)

/-! ### The first character -/

theorem upperChar_of_isSeparator {c u : Char} (hmem : u ∈ upperChar c) :
    isSeparator u = isSeparator c := by
  rw [Bool.eq_iff_iff]
  constructor
  · intro hu
    rwa [← eq_of_mem_upperChar ((inRanges_of_isSeparator hu).1) hmem]
  · intro hc
    rw [(isCaseless_of_isSeparator hc).upper_eq, List.mem_singleton] at hmem
    rwa [hmem]

/-- A letter with a single capital and the capital are in step. -/
theorem inStep_first {c u : Char} (hupper : upperChar c = [u]) (hcased : isCased u = isCased c)
    (hignorable : isIgnorable u = isIgnorable c) : InStep mark c.isLower c u [c] [u] := by
  have hmem : u ∈ upperChar c := by rw [hupper]; exact List.mem_singleton_self u
  have hword : endsWord u = (!c.isLower && endsWord c) := by
    cases hlower : c.isLower with
    | true =>
      have hcapital := isCapitalOf_toUpper hlower
      rw [hcapital.upper_eq.2, List.singleton_inj] at hupper
      rw [← hupper, endsWord, hcapital.isLower_eq.1, hcapital.isDigit_eq]
      rfl
    | false =>
      rw [Bool.not_false, Bool.true_and, Bool.eq_iff_iff]
      constructor
      · intro hu
        rwa [← eq_of_mem_upperChar (inRanges_of_endsWord hu) hmem]
      · intro hc
        rw [upperChar_of_endsWord hc hlower, List.mem_singleton] at hmem
        rwa [hmem]
  refine ⟨fun x => ?_, ?_, id, ?_⟩
  · rw [isHump, ← endsWord, hword, Bool.and_assoc]
    rfl
  · cases hc : isSeparator c with
    | true =>
      rw [(isCaseless_of_isSeparator hc).upper_eq, List.singleton_inj] at hupper
      rw [hupper]
    | false =>
      rw [isOther_eq_false_of_isSeparator hc,
        isOther_eq_false_of_isSeparator ((upperChar_of_isSeparator hmem).trans hc)]
  · rw [nextIsCased_cons, nextIsCased_cons, hcased, hignorable]

theorem comesBack_iff {c u : Char} {us : List Char} (hupper : upperChar c = u :: us) :
    ComesBack c ↔ lowerChar u ++ us = lowerChar c := by
  constructor
  · intro hcomes
    obtain ⟨-, u', hupper', -⟩ := comesBack_of_head? (congrArg List.head? hcomes)
    rw [hupper'] at hupper
    obtain ⟨rfl, rfl⟩ := List.cons.inj hupper
    rw [ComesBack, hupper', lowerChars_singleton] at hcomes
    rw [hcomes, List.append_nil]
  · intro heq
    refine (comesBack_of_head? ?_).1
    rw [head?_lowerChars, hupper, ← heq, List.head?_append_of_ne_nil _ (lowerChar_ne_nil u)]
    rfl

theorem comesBack_of_isSeparator {c : Char} (hc : isSeparator c = true) : ComesBack c := by
  have hcaseless := isCaseless_of_isSeparator hc
  rw [comesBack_iff hcaseless.upper_eq, List.append_nil]

/-! ### Names with marks -/

theorem head?_markWords (c : Char) (cs : List Char) :
    (markWords mark (c :: cs)).head? =
      if isOther mark c then some mark else (lowerChar c).head? := by
  rw [markWords_cons]
  split
  · rfl
  · exact List.head?_append_of_ne_nil _ (lowerChar_ne_nil c)

theorem comesBack_of_markWords_eq {c : Char} {cs : List Char}
    (heq : markWords mark (typeNameChars (c :: cs)) = markWords mark (c :: cs)) : ComesBack c := by
  by_cases hc : isSeparator c = true
  · exact comesBack_of_isSeparator hc
  · obtain ⟨u, us, hupper⟩ := List.exists_cons_of_ne_nil (upperChar_ne_nil c)
    have hu : isSeparator u = isSeparator c :=
      upperChar_of_isSeparator (by rw [hupper]; exact List.mem_cons_self)
    have hhead := congrArg List.head? heq
    rw [typeNameChars, hupper, List.cons_append, head?_markWords, head?_markWords, isOther, isOther,
      hu, Bool.eq_false_iff.mpr hc, Bool.false_and] at hhead
    refine (comesBack_of_head? ?_).1
    rw [head?_lowerChars, hupper]
    exact hhead

theorem markWords_typeNameChars_iff (hmark : isHyphenOrLow mark = true) (c : Char)
    (cs : List Char) :
    markWords mark (typeNameChars (c :: cs)) = markWords mark (c :: cs) ↔
      ComesBack c ∧ keepsWords mark c.isLower c cs = true := by
  have hiff : ComesBack c → (markWords mark (typeNameChars (c :: cs)) = markWords mark (c :: cs) ↔
      keepsWords mark c.isLower c cs = true) := by
    intro hcomes
    obtain ⟨-, u, hupper, hcased, hignorable⟩ := comesBack_of_head? (congrArg List.head? hcomes)
    have hstep : InStep mark c.isLower c u [c] [u] := inStep_first hupper hcased hignorable
    have hlower : lowerChar u = lowerChar c := by
      rw [← (comesBack_iff hupper).mp hcomes, List.append_nil]
    rw [typeNameChars, hupper, List.singleton_append, markWords_cons, markWords_cons, hlower,
      hstep.isOther_eq, List.append_cancel_left_eq, wordsFrom_joinSegments_iff hmark hstep]
  exact ⟨fun heq => ⟨comesBack_of_markWords_eq heq, (hiff (comesBack_of_markWords_eq heq)).mp heq⟩,
    fun h => (hiff h.1).mpr h.2⟩

/-! ### Names with capitals -/

theorem joinWords_joinSegments (pending : Bool) (cs : List Char) :
    joinWords pending (joinSegments cs) = joinWords pending cs := by
  fun_induction joinSegments cs generalizing pending with
  | case1 d b rest hdropped ih =>
    obtain ⟨hd, hb⟩ := Bool.and_eq_true_iff.mp hdropped
    have hcapital := isCapitalOf_toUpper hb
    have hseparator : isSeparator d = true := by rw [isSeparator, hd, Bool.true_or]
    have hcapitalWritten :
        (if pending then upperChar b.toUpper else [b.toUpper]) = [b.toUpper] := by
      cases pending with
      | true => exact hcapital.upper_eq.1
      | false => rfl
    rw [joinWords, hcapital.notSeparator.1, if_neg Bool.false_ne_true, hcapitalWritten, ih,
      joinWords, hseparator, if_pos rfl, joinWords, hcapital.notSeparator.2,
      if_neg Bool.false_ne_true, if_pos rfl, hcapital.upper_eq.2]
  | case2 d b rest hkept ih =>
    rw [joinWords, joinWords, ih, ih]
  | case3 cs hcs => rfl

theorem joinWords_append {xs : List Char} (hxs : ∀ x ∈ xs, isSeparator x = false)
    (ys : List Char) : joinWords false (xs ++ ys) = xs ++ joinWords false ys := by
  induction xs with
  | nil => rfl
  | cons x xs ih =>
    obtain ⟨hx, hxs⟩ := List.forall_mem_cons.mp hxs
    rw [List.cons_append, joinWords, hx, ih hxs]
    rfl

/-- The words of a type name are those of the name, behind the capital form of a first letter. -/
theorem joinWords_typeNameChars (c : Char) (cs : List Char) :
    joinWords false (typeNameChars (c :: cs)) =
      if isSeparator c then joinWords true cs else upperChar c ++ joinWords false cs := by
  rw [typeNameChars]
  split
  case isTrue hc =>
    rw [(isCaseless_of_isSeparator hc).upper_eq, List.singleton_append, joinWords, if_pos hc,
      joinWords_joinSegments]
  case isFalse hc =>
    have hxs : ∀ x ∈ upperChar c, isSeparator x = false := by
      intro x hx
      rw [upperChar_of_isSeparator hx]
      exact Bool.eq_false_iff.mpr hc
    rw [joinWords_append hxs, joinWords_joinSegments]

theorem joinWords_cons (c : Char) (cs : List Char) :
    joinWords false (c :: cs) =
      if isSeparator c then joinWords true cs else c :: joinWords false cs := by
  rw [joinWords]
  rfl

theorem pascalChars_typeNameChars (cs : List Char) :
    pascalChars (typeNameChars cs) = pascalChars cs := by
  cases cs with
  | nil => rfl
  | cons c cs =>
    rw [pascalChars, pascalChars, joinWords_typeNameChars, joinWords_cons]
    split
    · rfl
    · obtain ⟨u, us, hupper⟩ := List.exists_cons_of_ne_nil (upperChar_ne_nil c)
      have hu : upperChar u = [u] :=
        upperChar_of_mem_upperChar (c := c) (by rw [hupper]; exact List.mem_cons_self)
      rw [mapFirst, hupper, List.cons_append, mapFirst, hu]
      rfl

theorem camelChars_typeNameChars_iff (c : Char) (cs : List Char) :
    camelChars (typeNameChars (c :: cs)) = camelChars (c :: cs) ↔ ComesBack c := by
  rw [camelChars, camelChars, joinWords_typeNameChars, joinWords_cons]
  split
  case isTrue hc => exact iff_of_true rfl (comesBack_of_isSeparator hc)
  case isFalse hc =>
    obtain ⟨u, us, hupper⟩ := List.exists_cons_of_ne_nil (upperChar_ne_nil c)
    rw [comesBack_iff hupper, hupper, List.cons_append, mapFirst, mapFirst, ← List.append_assoc,
      List.append_cancel_right_eq]

/-! ### The condition -/

/-- Whether a name is the same in a convention as the type name that is made of it. -/
def keepsName : Convention → List Char → Bool
  | .pascal, _ => true
  | .camel, c :: _ => decide (ComesBack c)
  | .kebab, c :: cs => decide (ComesBack c) && keepsWords '-' c.isLower c cs
  | .snake, c :: cs => decide (ComesBack c) && keepsWords '_' c.isLower c cs
  | _, [] => true

theorem applyChars_typeNameChars_iff (convention : Convention) (cs : List Char) :
    convention.applyChars (typeNameChars cs) = convention.applyChars cs ↔
      keepsName convention cs = true := by
  cases cs with
  | nil => exact iff_of_true rfl (by cases convention <;> rfl)
  | cons c cs =>
    cases convention with
    | pascal => exact iff_of_true (pascalChars_typeNameChars _) rfl
    | camel =>
      rw [keepsName, decide_eq_true_eq]
      exact camelChars_typeNameChars_iff c cs
    | kebab =>
      rw [keepsName, Bool.and_eq_true, decide_eq_true_eq, ← markWords_typeNameChars_iff (by decide),
        ← kebabChars_eq, ← kebabChars_eq]
      rfl
    | snake =>
      rw [keepsName, Bool.and_eq_true, decide_eq_true_eq, ← markWords_typeNameChars_iff (by decide),
        ← snakeChars_eq, ← snakeChars_eq]
      rfl

end RamlSchema.Naming
