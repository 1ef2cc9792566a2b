import Mathlib.Data.List.Basic
import Mathlib.Data.Nat.Bitwise
import RamlSchema.Naming
import RamlSchema.Proofs.Lists

/-!
# What the letter case tables say

A character that no table mentions is its own form, so the tables decide what holds of all forms.
Sets of characters are compared as the bits of one number each. No form is a blank or another
separator, capitals are their own upper case forms, and a form that has the small form of its
letter is a single letter again.
-/

namespace RamlSchema.Text.Case

/-! ### Characters of a table -/

def Run.codes (run : Run) : List Nat :=
  (List.range ((run.last - run.first) / run.step + 1)).map fun n => run.first + run.step * n

theorem Run.mem_codes {run : Run} {code : Nat} (hcovers : run.covers code = true) :
    code ∈ run.codes := by
  simp only [covers, Bool.and_eq_true, decide_eq_true_eq, beq_iff_eq] at hcovers
  obtain ⟨⟨hfirst, hlast⟩, hstep⟩ := hcovers
  refine List.mem_map.mpr ⟨(code - run.first) / run.step, ?_, ?_⟩
  · rw [List.mem_range]
    exact Nat.lt_succ_of_le (Nat.div_le_div_right (Nat.sub_le_sub_right hlast _))
  · rw [Nat.mul_div_cancel' (Nat.dvd_of_mod_eq_zero hstep), Nat.add_sub_cancel' hfirst]

/-- The letter that a run moves a character to. -/
def Run.move (run : Run) (code : Nat) : Char := Char.ofNat (code + run.shift).toNat

def codesOf (runs : List Run) : List Nat := runs.flatMap Run.codes

def movesOf (runs : List Run) : List Nat :=
  runs.flatMap fun run => run.codes.map fun code => (run.move code).toNat

theorem mem_codesOf {runs : List Run} {run : Run} (hrun : run ∈ runs) {code : Nat}
    (hcovers : run.covers code = true) : code ∈ codesOf runs :=
  List.mem_flatMap.mpr ⟨run, hrun, Run.mem_codes hcovers⟩

theorem mem_movesOf {runs : List Run} {run : Run} (hrun : run ∈ runs) {code : Nat}
    (hcovers : run.covers code = true) : (run.move code).toNat ∈ movesOf runs :=
  List.mem_flatMap.mpr ⟨run, hrun, List.mem_map.mpr ⟨code, Run.mem_codes hcovers, rfl⟩⟩

def tableCodes (runs : List Run) (expansions : List (Nat × List Nat)) : List Nat :=
  expansions.map Prod.fst ++ codesOf runs

def tableForms (runs : List Run) (expansions : List (Nat × List Nat)) : List Nat :=
  (expansions.flatMap fun entry => entry.2.map fun code => (Char.ofNat code).toNat) ++ movesOf runs

/-- A case form under a table: the character itself, an expansion, or the letter that a run moves
it to. -/
def HasTable (f : Char → List Char) (runs : List Run) (expansions : List (Nat × List Nat)) : Prop :=
  ∀ c, f c = [c] ∨ (∃ codes, (c.toNat, codes) ∈ expansions ∧ f c = codes.map Char.ofNat) ∨
    ∃ run ∈ runs, run.covers c.toNat = true ∧ f c = [run.move c.toNat]

theorem hasTable_form (runs : List Run) (expansions : List (Nat × List Nat)) :
    HasTable (form runs expansions) runs expansions := by
  intro c
  unfold form
  cases hlookup : expansions.lookup c.toNat with
  | some codes =>
    exact .inr (.inl ⟨codes, mem_of_lookup_eq_some hlookup, rfl⟩)
  | none =>
    cases hfind : runs.find? (·.covers c.toNat) with
    | none => exact .inl rfl
    | some run =>
      have hcovers := List.find?_some (p := fun run : Run => run.covers c.toNat) hfind
      exact .inr (.inr ⟨run, List.mem_of_find?_eq_some hfind, hcovers, rfl⟩)

theorem forall_ascii {p : Char → Prop} (hall : ∀ n < 0x80, p (Char.ofNat n)) {c : Char}
    (hc : c.toNat < 0x80) : p c := by
  have hp := hall c.toNat hc
  rwa [Char.ofNat_toNat] at hp

theorem hasTable_upperChar : HasTable upperChar upperRuns upperExpansions := by
  intro c
  by_cases hc : c.toNat < 0x80
  · rw [upperChar, if_pos hc]
    have hascii : [c.toUpper] = [c] ∨ Run.covers ⟨0x61, 0x7A, 1, -32⟩ c.toNat = true ∧
        [c.toUpper] = [Run.move ⟨0x61, 0x7A, 1, -32⟩ c.toNat] :=
      forall_ascii (p := fun c => [c.toUpper] = [c] ∨
        Run.covers ⟨0x61, 0x7A, 1, -32⟩ c.toNat = true ∧
          [c.toUpper] = [Run.move ⟨0x61, 0x7A, 1, -32⟩ c.toNat]) (by decide +kernel) hc
    exact hascii.imp_right fun hrun => .inr ⟨_, List.mem_cons_self, hrun⟩
  · rw [upperChar, if_neg hc]
    exact hasTable_form upperRuns upperExpansions c

theorem hasTable_lowerChar : HasTable lowerChar lowerRuns lowerExpansions := by
  intro c
  by_cases hc : c.toNat < 0x80
  · rw [lowerChar, if_pos hc]
    have hascii : [c.toLower] = [c] ∨ Run.covers ⟨0x41, 0x5A, 1, 32⟩ c.toNat = true ∧
        [c.toLower] = [Run.move ⟨0x41, 0x5A, 1, 32⟩ c.toNat] :=
      forall_ascii (p := fun c => [c.toLower] = [c] ∨
        Run.covers ⟨0x41, 0x5A, 1, 32⟩ c.toNat = true ∧
          [c.toLower] = [Run.move ⟨0x41, 0x5A, 1, 32⟩ c.toNat]) (by decide +kernel) hc
    exact hascii.imp_right fun hrun => .inr ⟨_, List.mem_cons_self, hrun⟩
  · rw [lowerChar, if_neg hc]
    exact hasTable_form lowerRuns lowerExpansions c

/-! ### Sets of characters as bits -/

/-- A number whose bits say which numbers are in a list. -/
def bits (codes : List Nat) : Nat := codes.foldr (fun code set => set ||| 1 <<< code) 0

theorem testBit_bits (codes : List Nat) (n : Nat) :
    (bits codes).testBit n = decide (n ∈ codes) := by
  induction codes with
  | nil => simp [bits]
  | cons code codes ih =>
    change ((bits codes) ||| 1 <<< code).testBit n = _
    rw [Nat.testBit_lor, ih, Nat.one_shiftLeft, Nat.testBit_two_pow]
    simp [eq_comm, Bool.or_comm]

/-- A number whose bits say which numbers lie in ranges. -/
def rangeBits (ranges : List (Nat × Nat)) : Nat :=
  ranges.foldr (fun range set => set ||| (2 ^ (range.2 + 1 - range.1) - 1) <<< range.1) 0

theorem testBit_rangeBits (ranges : List (Nat × Nat)) (c : Char) :
    (rangeBits ranges).testBit c.toNat = inRanges ranges c := by
  induction ranges with
  | nil => simp [rangeBits, inRanges]
  | cons range ranges ih =>
    change ((rangeBits ranges) ||| (2 ^ (range.2 + 1 - range.1) - 1) <<< range.1).testBit _ = _
    rw [Nat.testBit_lor, ih, Nat.testBit_shiftLeft, Nat.testBit_two_pow_sub_one, inRanges, inRanges,
      List.any_cons, Bool.or_comm]
    congr 1
    rw [Bool.eq_iff_iff]
    simp
    omega

theorem not_testBit_of_land {a b : Nat} (hland : a &&& b = 0) {n : Nat} (hn : a.testBit n = true) :
    b.testBit n = false := by
  have hbit : (a &&& b).testBit n = false := by rw [hland, Nat.zero_testBit]
  rw [Nat.testBit_land, hn] at hbit
  simpa using hbit

theorem notMem_of_land {codes : List Nat} {ranges : List (Nat × Nat)}
    (hland : bits codes &&& rangeBits ranges = 0) {c : Char} (hc : inRanges ranges c = true) :
    c.toNat ∉ codes := by
  intro hmem
  have hbit := testBit_bits codes c.toNat
  rw [decide_eq_true hmem] at hbit
  have hout := not_testBit_of_land hland hbit
  rw [testBit_rangeBits, hc] at hout
  cases hout

/-! ### Characters and their forms -/

namespace HasTable

variable {f : Char → List Char} {runs : List Run} {expansions : List (Nat × List Nat)}

/-- What is not its own form stands in the table, and so does its form. -/
theorem eq_or_mem (htable : HasTable f runs expansions) (c : Char) :
    f c = [c] ∨ c.toNat ∈ tableCodes runs expansions ∧
      ∀ d ∈ f c, d.toNat ∈ tableForms runs expansions := by
  rcases htable c with hsame | ⟨codes, hmem, hform⟩ | ⟨run, hrun, hcovers, hform⟩
  · exact .inl hsame
  · refine .inr ⟨List.mem_append_left _ (List.mem_map.mpr ⟨_, hmem, rfl⟩), fun d hd => ?_⟩
    rw [hform] at hd
    obtain ⟨code, hcode, rfl⟩ := List.mem_map.mp hd
    exact List.mem_append_left _
      (List.mem_flatMap.mpr ⟨_, hmem, List.mem_map.mpr ⟨code, hcode, rfl⟩⟩)
  · refine .inr ⟨List.mem_append_right _ (mem_codesOf hrun hcovers), fun d hd => ?_⟩
    rw [hform, List.mem_singleton] at hd
    rw [hd]
    exact List.mem_append_right _ (mem_movesOf hrun hcovers)

theorem ne_nil (htable : HasTable f runs expansions)
    (hexpansions : ∀ entry ∈ expansions, entry.2 ≠ []) (c : Char) : f c ≠ [] := by
  rcases htable c with hform | ⟨codes, hmem, hform⟩ | ⟨run, -, -, hform⟩
  · rw [hform]
    exact List.cons_ne_nil _ _
  · rw [hform]
    exact fun hnil => hexpansions _ hmem (List.map_eq_nil_iff.mp hnil)
  · rw [hform]
    exact List.cons_ne_nil _ _

/-- Characters that no form in the table has are the forms of themselves only. -/
theorem eq_of_mem (htable : HasTable f runs expansions) {ranges : List (Nat × Nat)}
    (hland : bits (tableForms runs expansions) &&& rangeBits ranges = 0) {c d : Char}
    (hd : inRanges ranges d = true) (hmem : d ∈ f c) : d = c := by
  rcases htable.eq_or_mem c with hsame | ⟨-, hforms⟩
  · rwa [hsame, List.mem_singleton] at hmem
  · exact absurd (hforms d hmem) (notMem_of_land hland hd)

/-- Characters that the table does not mention are their own forms. -/
theorem eq_singleton (htable : HasTable f runs expansions) {c : Char}
    (hc : c.toNat ∉ tableCodes runs expansions) : f c = [c] :=
  (htable.eq_or_mem c).resolve_right fun hmem => hc hmem.1

/-- A table that gives no form to its own forms leaves every form as it is. -/
theorem eq_singleton_of_mem (htable : HasTable f runs expansions)
    (hland : bits (tableCodes runs expansions) &&& bits (tableForms runs expansions) = 0)
    {c d : Char} (hd : d ∈ f c) : f d = [d] := by
  rcases htable.eq_or_mem c with hsame | ⟨-, hforms⟩
  · rw [hsame, List.mem_singleton] at hd
    rw [hd, hsame]
  · apply htable.eq_singleton
    intro hmem
    have hcodes := testBit_bits (tableCodes runs expansions) d.toNat
    rw [decide_eq_true hmem] at hcodes
    have hout := not_testBit_of_land hland hcodes
    rw [testBit_bits, decide_eq_true (hforms d hd)] at hout
    cases hout

end HasTable

theorem upperChar_ne_nil (c : Char) : upperChar c ≠ [] :=
  hasTable_upperChar.ne_nil (by decide) c

theorem lowerChar_ne_nil (c : Char) : lowerChar c ≠ [] :=
  hasTable_lowerChar.ne_nil (by decide) c

def blankRanges : List (Nat × Nat) :=
  [(0x09, 0x0D), (0x1C, 0x20), (0x85, 0x85), (0xA0, 0xA0), (0x1680, 0x1680), (0x2000, 0x200A),
    (0x2028, 0x2029), (0x202F, 0x202F), (0x205F, 0x205F), (0x3000, 0x3000)]

theorem inRanges_blankRanges (c : Char) : inRanges blankRanges c = isBlank c := by
  rw [Bool.eq_iff_iff]
  simp only [inRanges, blankRanges, List.any_cons, List.any_nil, isBlank, Bool.or_eq_true,
    Bool.and_eq_true, decide_eq_true_eq, beq_iff_eq, Bool.false_eq_true, or_false]
  omega

/-- Blanks, and what is no capital in ASCII. -/
def noCapitals : List (Nat × Nat) := (0x00, 0x40) :: (0x5B, 0x7F) :: blankRanges

/-- Blanks, and what is no small letter in ASCII. -/
def noSmallLetters : List (Nat × Nat) := (0x00, 0x60) :: (0x7B, 0x7F) :: blankRanges

theorem eq_of_mem_upperChar {c d : Char} (hd : inRanges noCapitals d = true)
    (hmem : d ∈ upperChar c) : d = c :=
  hasTable_upperChar.eq_of_mem (by decide +kernel) hd hmem

theorem eq_of_mem_lowerChar {c d : Char} (hd : inRanges noSmallLetters d = true)
    (hmem : d ∈ lowerChar c) : d = c :=
  hasTable_lowerChar.eq_of_mem (by decide +kernel) hd hmem

/-- The characters of an upper case form are their own upper case forms. -/
theorem upperChar_of_mem_upperChar {c d : Char} (hd : d ∈ upperChar c) : upperChar d = [d] :=
  hasTable_upperChar.eq_singleton_of_mem (by decide +kernel) hd

theorem lowerChar_of_mem_lowerChar {c d : Char} (hd : d ∈ lowerChar c) : lowerChar d = [d] :=
  hasTable_lowerChar.eq_singleton_of_mem (by decide +kernel) hd

/-! ### Characters without case -/

/-- A character that the case forms leave alone and that ends the context of a sigma. -/
structure IsCaseless (c : Char) : Prop where
  upper_eq : upperChar c = [c]
  lower_eq : lowerChar c = [c]
  isCased_eq : isCased c = false
  isIgnorable_eq : isIgnorable c = false

theorem isCaseless_of_isBlank {c : Char} (hc : isBlank c = true) : IsCaseless c := by
  rw [← inRanges_blankRanges] at hc
  have hbit : (rangeBits blankRanges).testBit c.toNat = true := by rw [testBit_rangeBits, hc]
  have hupper : bits (tableCodes upperRuns upperExpansions) &&& rangeBits blankRanges = 0 := by
    decide +kernel
  have hlower : bits (tableCodes lowerRuns lowerExpansions) &&& rangeBits blankRanges = 0 := by
    decide +kernel
  have hcased : rangeBits blankRanges &&& rangeBits casedRanges = 0 := by decide +kernel
  have hignorable : rangeBits blankRanges &&& rangeBits ignorableRanges = 0 := by decide +kernel
  refine ⟨hasTable_upperChar.eq_singleton ?_, hasTable_lowerChar.eq_singleton ?_, ?_, ?_⟩
  · exact notMem_of_land hupper hc
  · exact notMem_of_land hlower hc
  · rw [isCased, ← testBit_rangeBits, not_testBit_of_land hcased hbit]
  · rw [isIgnorable, ← testBit_rangeBits, not_testBit_of_land hignorable hbit]

/-! ### Lower case text -/

/-- The lower case form of a character between others. -/
def lowerIn (before : List Char) (c : Char) (after : List Char) : List Char :=
  if c = capitalSigma then [sigmaForm before after] else lowerChar c

theorem lowerFrom_cons (before : List Char) (c : Char) (cs : List Char) :
    lowerFrom before (c :: cs) = lowerIn before c cs ++ lowerFrom (c :: before) cs := rfl

theorem lowerIn_of_ne {c : Char} (hc : c ≠ capitalSigma) (before after : List Char) :
    lowerIn before c after = lowerChar c := if_neg hc

theorem lowerIn_nil_left (c : Char) (after : List Char) : lowerIn [] c after = lowerChar c := by
  unfold lowerIn
  split
  case isTrue hc =>
    rw [hc]
    have hform : lowerChar capitalSigma = ['σ'] := by decide +kernel
    rw [hform]
    rfl
  case isFalse => rfl

theorem lowerIn_ne_nil (before : List Char) (c : Char) (after : List Char) :
    lowerIn before c after ≠ [] := by
  unfold lowerIn
  split
  case isTrue => exact List.cons_ne_nil _ _
  case isFalse => exact lowerChar_ne_nil c

/-- The number of characters does not depend on the context. -/
theorem length_lowerIn (before before' : List Char) (c : Char) (after after' : List Char) :
    (lowerIn before c after).length = (lowerIn before' c after').length := by
  unfold lowerIn
  split <;> rfl

theorem sigmaForm_eq_or (before after : List Char) :
    sigmaForm before after = 'ς' ∨ sigmaForm before after = 'σ' := by
  unfold sigmaForm
  split
  · exact .inl rfl
  · exact .inr rfl

theorem eq_of_mem_lowerIn {before after : List Char} {c d : Char}
    (hd : inRanges noSmallLetters d = true) (hmem : d ∈ lowerIn before c after) : d = c := by
  unfold lowerIn at hmem
  split at hmem
  case isTrue =>
    rw [List.mem_singleton] at hmem
    rcases sigmaForm_eq_or before after with hform | hform <;>
      rw [hmem, hform] at hd <;> exact absurd hd (by decide)
  case isFalse => exact eq_of_mem_lowerChar hd hmem

theorem mem_of_mem_lowerFrom {before cs : List Char} {d : Char}
    (hd : inRanges noSmallLetters d = true) (hmem : d ∈ lowerFrom before cs) : d ∈ cs := by
  induction cs generalizing before with
  | nil => exact hmem
  | cons c cs ih =>
    rw [lowerFrom_cons, List.mem_append] at hmem
    rcases hmem with hmem | hmem
    · exact List.mem_cons.mpr (.inl (eq_of_mem_lowerIn hd hmem))
    · exact List.mem_cons_of_mem c (ih hmem)

/-! ### Letters that come back -/

/-- The small form of the capital of a character is the small form of the character. -/
def ComesBack (c : Char) : Prop := lowerChars (upperChar c) = lowerChar c

instance (c : Char) : Decidable (ComesBack c) := inferInstanceAs (Decidable (_ = _))

theorem lowerChars_singleton (c : Char) : lowerChars [c] = lowerChar c := by
  rw [lowerChars, lowerFrom_cons, lowerIn_nil_left]
  exact List.append_nil _

theorem head?_lowerChars (cs : List Char) :
    (lowerChars cs).head? = cs.head?.bind fun c => (lowerChar c).head? := by
  cases cs with
  | nil => rfl
  | cons c cs =>
    rw [lowerChars, lowerFrom_cons, lowerIn_nil_left,
      List.head?_append_of_ne_nil _ (lowerChar_ne_nil c)]
    rfl

/-- The small form of an expansion begins with another character than that of its letter. -/
theorem head?_expansions_ne : ∀ entry ∈ upperExpansions,
    (entry.2.head?.bind fun code => (lowerChar (Char.ofNat code)).head?) ≠
      (lowerChar (Char.ofNat entry.1)).head? := by
  decide +kernel

theorem length_lowerChar {c : Char} (hc : c.toNat ≠ 0x130) : (lowerChar c).length = 1 := by
  rcases hasTable_lowerChar c with hform | ⟨codes, hmem, -⟩ | ⟨run, -, -, hform⟩
  · rw [hform]
    rfl
  · have hcodes : ∀ entry ∈ lowerExpansions, entry.1 = 0x130 := by decide
    exact absurd (hcodes _ hmem) hc
  · rw [hform]
    rfl

/-- The only character with a single capital that is no cased letter. -/
def iotaBelow : Char := Char.ofNat 0x345

theorem toNat_ne_of_ne_iotaBelow {c : Char} (hne : c ≠ iotaBelow) : c.toNat ≠ 0x345 := by
  intro hcode
  rw [← Char.ofNat_toNat c, hcode] at hne
  exact hne rfl

theorem upperCodes_cased :
    bits (codesOf upperRuns) &&& rangeBits casedRanges ||| bits [0x345] =
        bits (codesOf upperRuns) ∧
      bits (codesOf upperRuns) &&& rangeBits ignorableRanges = bits [0x345] := by
  decide +kernel

theorem upperMoves_cased :
    bits (movesOf upperRuns) &&& rangeBits casedRanges = bits (movesOf upperRuns) ∧
      bits (movesOf upperRuns) &&& rangeBits ignorableRanges = 0 := by
  decide +kernel

/-- The letters that a run moves are cased, but for one. -/
theorem isCased_of_mem_codesOf {c : Char} (hc : c.toNat ∈ codesOf upperRuns) (hne : c ≠ iotaBelow) :
    isCased c = true ∧ isIgnorable c = false := by
  have hbit : (bits (codesOf upperRuns)).testBit c.toNat = true := by
    rw [testBit_bits, decide_eq_true hc]
  have hother : (bits [0x345]).testBit c.toNat = false := by
    simp [testBit_bits, toNat_ne_of_ne_iotaBelow hne]
  constructor
  · have hcased := congrArg (Nat.testBit · c.toNat) upperCodes_cased.1
    rw [isCased]
    simpa [hbit, hother, testBit_rangeBits] using hcased
  · have hignorable := congrArg (Nat.testBit · c.toNat) upperCodes_cased.2
    rw [isIgnorable]
    simpa [hbit, hother, testBit_rangeBits] using hignorable

theorem isCased_of_mem_movesOf {c : Char} (hc : c.toNat ∈ movesOf upperRuns) :
    isCased c = true ∧ isIgnorable c = false := by
  have hbit : (bits (movesOf upperRuns)).testBit c.toNat = true := by
    rw [testBit_bits, decide_eq_true hc]
  constructor
  · have hcased := congrArg (Nat.testBit · c.toNat) upperMoves_cased.1
    rw [isCased]
    simpa [hbit, testBit_rangeBits] using hcased
  · have hignorable := congrArg (Nat.testBit · c.toNat) upperMoves_cased.2
    rw [isIgnorable]
    simpa [hbit, testBit_rangeBits] using hignorable

theorem longLower_not_upper :
    (bits (codesOf upperRuns)).testBit 0x130 = false ∧
      (bits (movesOf upperRuns)).testBit 0x130 = false := by
  decide +kernel

/-- The first character tells whether a letter comes back. One that does has a single capital, which
is cased or passed over as the letter is. -/
theorem comesBack_of_head? {c : Char}
    (hhead : (lowerChars (upperChar c)).head? = (lowerChar c).head?) :
    ComesBack c ∧
      ∃ u, upperChar c = [u] ∧ isCased u = isCased c ∧ isIgnorable u = isIgnorable c := by
  rw [head?_lowerChars] at hhead
  rcases hasTable_upperChar c with hform | ⟨codes, hmem, hform⟩ | ⟨run, hrun, hcovers, hform⟩
  · exact ⟨by rw [ComesBack, hform, lowerChars_singleton], c, hform, rfl, rfl⟩
  · have hne := head?_expansions_ne _ hmem
    rw [hform, List.head?_map, Option.bind_map] at hhead
    rw [Char.ofNat_toNat] at hne
    exact absurd hhead hne
  · have hcode := mem_codesOf hrun hcovers
    have hmove := mem_movesOf hrun hcovers
    generalize run.move c.toNat = u at hform hmove
    have hlength : (lowerChar c).length = 1 := by
      refine length_lowerChar fun hc => ?_
      have hbit := longLower_not_upper.1
      rw [testBit_bits, ← hc, decide_eq_true hcode] at hbit
      cases hbit
    have hlength' : (lowerChar u).length = 1 := by
      refine length_lowerChar fun hu => ?_
      have hbit := longLower_not_upper.2
      rw [testBit_bits, ← hu, decide_eq_true hmove] at hbit
      cases hbit
    rw [hform] at hhead
    obtain ⟨d, hd⟩ := List.length_eq_one_iff.mp hlength
    obtain ⟨e, he⟩ := List.length_eq_one_iff.mp hlength'
    have hback : ComesBack c := by
      rw [ComesBack, hform, lowerChars_singleton, he, hd]
      simpa [he, hd] using hhead
    refine ⟨hback, u, hform, ?_⟩
    have hne : c ≠ iotaBelow := by
      rintro rfl
      revert hback
      decide +kernel
    obtain ⟨hcased, hignorable⟩ := isCased_of_mem_codesOf hcode hne
    obtain ⟨hcased', hignorable'⟩ := isCased_of_mem_movesOf hmove
    exact ⟨hcased'.trans hcased.symm, hignorable'.trans hignorable.symm⟩

end RamlSchema.Text.Case
