import Mathlib.Data.List.TakeWhile
import RamlSchema.Json.Printer
import RamlSchema.Json.Token

/-!
# Scanning what is printed

Every piece of a printed document is one token again. Strings and signs show where they end, so they
may be followed by anything. A number does not: the next character must not go on with it, and the
printer sees to that with a comma or a line feed.
-/

namespace RamlSchema.Json

variable {rest after : List Char} {token : Token}

/-! ### One token after another -/

theorem tokens?_of_isSpace {c : Char} (hspace : isSpace c = true) :
    tokens? (c :: rest) = tokens? rest := by
  rw [tokens?, if_pos hspace]

theorem tokens?_of_scanToken {c : Char} (hspace : isSpace c = false)
    (hscan : scanToken (c :: rest) = some (token, after)) :
    tokens? (c :: rest) = (tokens? after).map (token :: ·) := by
  rw [tokens?, if_neg (by simp [hspace])]
  split
  case h_1 hnone => simp [hscan] at hnone
  case h_2 hsome =>
    obtain ⟨rfl, rfl⟩ := by simpa [hscan] using hsome
    rfl

theorem tokens?_newLine (level : Nat) (rest : List Char) :
    tokens? (newLine level ++ rest) = tokens? rest := by
  rw [newLine, List.cons_append, tokens?_of_isSpace (by decide)]
  induction 2 * level with
  | zero => rfl
  | succ n ih => rw [List.replicate_succ, List.cons_append, tokens?_of_isSpace (by decide), ih]

/-! ### Strings -/

theorem escaped?_of_shortEscape? {c e : Char} (hescape : shortEscape? c = some e) :
    escaped? e = some c ∧ e ≠ 'u' := by
  unfold shortEscape? at hescape
  split at hescape
  case isTrue hself =>
    obtain rfl := Option.some_inj.mp hescape
    rcases hself with rfl | rfl <;> decide
  repeat' split at hescape
  all_goals first
    | (obtain rfl := Option.some_inj.mp hescape; subst_vars; decide)
    | cases hescape

theorem scanString_escape {c e : Char} (hback : escaped? e = some c) (hunicode : e ≠ 'u') :
    scanString ('\\' :: e :: rest) =
      (scanString rest).map fun (units, rest) => (c.toNat :: units, rest) := by
  rw [scanString.eq_3 _ _ fun _ _ _ _ _ h _ => hunicode h, hback]
  cases scanString rest <;> rfl

theorem scanString_hex {n : Nat} (hn : n < 0x20) (rest : List Char) :
    scanString ('\\' :: 'u' :: (Text.Hex.digits 4 n ++ rest)) =
      (scanString rest).map fun (units, rest) => (n :: units, rest) := by
  have hlow : Text.Hex.value? (Text.Hex.digit (n % 16)) = some (n % 16) :=
    Text.Hex.value?_digit _ (by omega)
  have hhigh : Text.Hex.value? (Text.Hex.digit (n / 16 % 16)) = some (n / 16 % 16) :=
    Text.Hex.value?_digit _ (by omega)
  have hzero : Text.Hex.value? (Text.Hex.digit 0) = some 0 := Text.Hex.value?_digit 0 (by decide)
  have hdiv : n / 16 / 16 = 0 := by omega
  have hsum : n / 16 % 16 * 16 + n % 16 = n := by omega
  simp only [Text.Hex.digits, hdiv, Nat.zero_mod, Nat.zero_div, List.nil_append, List.cons_append,
    scanString, hex4?, hlow, hhigh, hzero, Option.bind_eq_bind, Option.bind_some, Nat.zero_mul,
    Nat.zero_add, hsum]
  cases scanString rest <;> rfl

/-- A character is written in one of three ways, and each is read as its code point. -/
theorem scanString_escapeChar (c : Char) (rest : List Char) :
    scanString (escapeChar c ++ rest) =
      (scanString rest).map fun (units, rest) => (c.toNat :: units, rest) := by
  unfold escapeChar
  cases hescape : shortEscape? c with
  | some e =>
    obtain ⟨hback, hunicode⟩ := escaped?_of_shortEscape? hescape
    exact scanString_escape hback hunicode
  | none =>
    by_cases hcontrol : c.toNat < 0x20
    · simpa [hcontrol] using scanString_hex hcontrol rest
    · have hself : c ≠ Char.ofNat 0x22 ∧ c ≠ '\\' := by
        rw [← not_or]
        intro h
        simp [shortEscape?, h] at hescape
      simp only [hcontrol, if_false, List.cons_append, List.nil_append]
      rw [scanString.eq_4 _ _ (fun _ _ _ _ _ h _ => hself.2 h) fun _ _ h _ => hself.2 h,
        if_neg hself.1, if_neg (not_or.mpr ⟨hcontrol, hself.2⟩)]
      cases scanString rest <;> rfl

theorem scanString_escaped (cs rest : List Char) :
    scanString (cs.flatMap escapeChar ++ Char.ofNat 0x22 :: rest) =
      some (cs.map Char.toNat, rest) := by
  induction cs with
  | nil =>
    have hquote : Char.ofNat 0x22 ≠ '\\' := by decide
    rw [List.flatMap_nil, List.nil_append,
      scanString.eq_4 _ _ (fun _ _ _ _ _ h _ => hquote h) fun _ _ h _ => hquote h, if_pos rfl]
    rfl
  | cons c cs ih =>
    rw [List.flatMap_cons, List.append_assoc, scanString_escapeChar, ih]
    rfl

theorem not_isSurrogate (c : Char) :
    isHighSurrogate c.toNat = false ∧ isLowSurrogate c.toNat = false := by
  have hvalid := c.valid
  simp only [UInt32.isValidChar, Nat.isValidChar] at hvalid
  simp only [isHighSurrogate, isLowSurrogate, Bool.and_eq_false_iff, decide_eq_false_iff_not,
    Char.toNat]
  omega

/-- A character is no half of a pair, so every code point stands for itself. -/
theorem charsOfUnits?_map_toNat (cs : List Char) : charsOfUnits? (cs.map Char.toNat) = some cs := by
  induction cs with
  | nil => rfl
  | cons c cs ih =>
    obtain ⟨hhigh, hlow⟩ := not_isSurrogate c
    cases cs with
    | nil => simp [charsOfUnits?, hhigh, hlow]
    | cons d ds =>
      simp only [List.map_cons] at ih ⊢
      rw [charsOfUnits?, ih]
      simp [hhigh, hlow]

theorem tokens?_printString (cs rest : List Char) :
    tokens? (printString cs ++ rest) =
      (tokens? rest).map (.scalar (.str (.ofList cs)) :: ·) := by
  refine tokens?_of_scanToken (by decide) ?_
  change scanText (cs.flatMap escapeChar ++ [Char.ofNat 0x22] ++ rest) = _
  rw [scanText, List.append_assoc, List.singleton_append, scanString_escaped]
  simp [charsOfUnits?_map_toNat]

/-! ### Names -/

theorem tokens?_name {name : String} {value : Json} (hname : (name, value) ∈ names)
    (rest : List Char) :
    tokens? (name.toList ++ rest) = (tokens? rest).map (.scalar value :: ·) := by
  simp only [names, List.mem_cons, Prod.mk.injEq, List.not_mem_nil, or_false] at hname
  rcases hname with ⟨rfl, rfl⟩ | ⟨rfl, rfl⟩ | ⟨rfl, rfl⟩ | ⟨rfl, rfl⟩ | ⟨rfl, rfl⟩ | ⟨rfl, rfl⟩
  all_goals exact tokens?_of_scanToken (by decide) rfl

/-! ### Numbers -/

/-- What follows a number does not go on with it. -/
def EndsNumber (rest : List Char) : Prop :=
  ∀ c ∈ rest.head?, isDigit c = false ∧ c ≠ '.' ∧ c ≠ 'e' ∧ c ≠ 'E'

theorem isDigit_digit : ∀ n < 10, isDigit (Text.Decimal.digit n) = true := by decide

theorem digit_ne_zero : ∀ n < 10, 0 < n → Text.Decimal.digit n ≠ '0' := by decide

theorem isDigit_of_mem_digits {n : Nat} {c : Char} (hc : c ∈ Text.Decimal.digits n) :
    isDigit c = true := by
  induction n using Nat.strongRecOn with
  | ind n ih =>
    rw [Text.Decimal.digits] at hc
    split at hc
    case isTrue hsmall =>
      obtain rfl := List.mem_singleton.mp hc
      exact isDigit_digit n hsmall
    case isFalse hlarge =>
      rcases List.mem_append.mp hc with hfront | hlast
      · exact ih (n / 10) (by omega) hfront
      · obtain rfl := List.mem_singleton.mp hlast
        exact isDigit_digit _ (by omega)

/-- Only zero is written with a leading zero. -/
theorem exists_digits_eq_cons (n : Nat) :
    ∃ c cs, Text.Decimal.digits n = c :: cs ∧ (c = '0' → n = 0) := by
  induction n using Nat.strongRecOn with
  | ind n ih =>
    rw [Text.Decimal.digits]
    split
    case isTrue hsmall =>
      refine ⟨_, [], rfl, fun hzero => ?_⟩
      by_contra hn
      exact digit_ne_zero n hsmall (by omega) hzero
    case isFalse hlarge =>
      obtain ⟨c, cs, hdigits, hzero⟩ := ih (n / 10) (by omega)
      refine ⟨c, cs ++ [Text.Decimal.digit (n % 10)], by rw [hdigits]; rfl, fun hc => ?_⟩
      have := hzero hc
      omega

theorem scanWhole_digits (n : Nat) (hrest : ∀ c ∈ rest.head?, isDigit c = false) :
    scanWhole (Text.Decimal.digits n ++ rest) = some (Text.Decimal.digits n, rest) := by
  by_cases hn : n = 0
  · subst hn
    have hzero : Text.Decimal.digits 0 = ['0'] := by rw [Text.Decimal.digits]; rfl
    rw [hzero, List.cons_append, scanWhole, if_pos rfl, List.nil_append]
  · obtain ⟨c, cs, hdigits, hzero⟩ := exists_digits_eq_cons n
    have hc : c ≠ '0' := fun h => hn (hzero h)
    have hall : ∀ d ∈ c :: cs, isDigit d = true := fun d hd =>
      isDigit_of_mem_digits (hdigits ▸ hd)
    have hcs : ∀ d ∈ cs, isDigit d = true := fun d hd => hall d (List.mem_cons_of_mem _ hd)
    have htake : rest.takeWhile isDigit = [] ∧ rest.dropWhile isDigit = rest := by
      cases rest with
      | nil => exact ⟨rfl, rfl⟩
      | cons d ds => simp [hrest d rfl]
    rw [hdigits, List.cons_append, scanWhole, if_neg hc, if_pos (hall c (by simp)),
      List.takeWhile_append_of_pos hcs, List.dropWhile_append_of_pos hcs, htake.1, htake.2,
      List.append_nil]

theorem scanMagnitude_digits (n : Nat) (hrest : EndsNumber rest) :
    scanMagnitude (Text.Decimal.digits n ++ rest) = some (.int n, rest) := by
  have hfraction : scanFraction rest = ([], rest) := by
    unfold scanFraction
    split
    case h_1 tail => exact absurd rfl (hrest '.' rfl).2.1
    case h_2 => rfl
  have hexponent : scanExponent rest = (none, rest) := by
    cases rest with
    | nil => rfl
    | cons mark tail =>
      obtain ⟨-, -, hlower, hupper⟩ := hrest mark rfl
      simp [scanExponent, hlower, hupper]
  rw [scanMagnitude, scanWhole_digits n fun c hc => (hrest c hc).1]
  simp [hfraction, hexponent, Text.Decimal.ofDigits_digits]

/-- A name has a digit neither first nor behind its sign. -/
theorem scanName_eq_none {cs : List Char} (hdigit : (cs.take 2).any isDigit = true) :
    scanName cs = none := by
  have hnames : ∀ pair ∈ names,
      2 ≤ pair.1.toList.length ∧ (pair.1.toList.take 2).any isDigit = false := by decide
  refine List.findSome?_eq_none_iff.mpr fun pair hpair => Option.map_eq_none_iff.mpr ?_
  obtain ⟨hlength, hfront⟩ := hnames pair hpair
  by_contra hfound
  obtain ⟨rest, hrest⟩ := Option.ne_none_iff_exists'.mp hfound
  rw [Text.isPrefixOf?_eq_some_iff.mp hrest, List.take_append_of_le_length hlength,
    hfront] at hdigit
  cases hdigit

theorem tokens?_of_scanNumber {c : Char} (hlead : isDigit c = true ∨ c = '-')
    (hdigit : ((c :: rest).take 2).any isDigit = true)
    (hscan : scanNumber (c :: rest) = some (token, after)) :
    tokens? (c :: rest) = (tokens? after).map (token :: ·) := by
  have hne : ∀ sign, isDigit sign = false → sign ≠ '-' → c ≠ sign := by
    rintro sign hsign hminus rfl
    rcases hlead with hlead | hlead
    · simp [hsign] at hlead
    · exact hminus hlead
  refine tokens?_of_scanToken ?_ ?_
  · simp [isSpace, hne ' ' rfl (by decide), hne '\t' rfl (by decide), hne '\n' rfl (by decide),
      hne '\r' rfl (by decide)]
  · simp only [scanToken, hne '[' rfl (by decide), hne ']' rfl (by decide),
      hne (Char.ofNat 0x7B) rfl (by decide), hne (Char.ofNat 0x7D) rfl (by decide),
      hne ':' rfl (by decide), hne ',' rfl (by decide), hne (Char.ofNat 0x22) rfl (by decide),
      if_false, scanName_eq_none hdigit, Option.none_or, hscan]

theorem tokens?_signed (n : Int) (hrest : EndsNumber rest) :
    tokens? (Text.Decimal.signed n ++ rest) =
      (tokens? rest).map (.scalar (.num (.int n)) :: ·) := by
  cases n with
  | ofNat n =>
    obtain ⟨c, cs, hdigits, -⟩ := exists_digits_eq_cons n
    have hc : isDigit c = true := isDigit_of_mem_digits (n := n) (by simp [hdigits])
    have hscan := scanMagnitude_digits n hrest
    rw [hdigits, List.cons_append] at hscan
    rw [Text.Decimal.signed, hdigits, List.cons_append]
    refine tokens?_of_scanNumber (.inl hc) (by simp [hc]) ?_
    rw [scanNumber.eq_2 _ fun _ h => ?_, hscan]
    · rfl
    · obtain ⟨rfl, -⟩ := List.cons.inj h
      cases hc
  | negSucc n =>
    obtain ⟨c, cs, hdigits, -⟩ := exists_digits_eq_cons (n + 1)
    have hc : isDigit c = true := isDigit_of_mem_digits (n := n + 1) (by simp [hdigits])
    rw [Text.Decimal.signed, List.cons_append]
    refine tokens?_of_scanNumber (.inr rfl) (by simp [hdigits, hc]) ?_
    rw [scanNumber, scanMagnitude_digits (n + 1) hrest]
    rfl

end RamlSchema.Json
