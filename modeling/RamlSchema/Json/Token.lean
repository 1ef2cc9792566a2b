import RamlSchema.Json.Basic
import RamlSchema.Text.Basic
import RamlSchema.Text.Decimal
import RamlSchema.Text.Hex

/-!
# Tokens of a document

The signs, names, numbers and strings that a JSON text is made of. Two scalars may stand side by
side here, and it is left to the grammar to refuse them.
-/

namespace RamlSchema.Json

inductive Token where
  | openArray
  | closeArray
  | openObject
  | closeObject
  | colon
  | comma
  | scalar (value : Json)
  deriving DecidableEq, Repr

/-- The blanks that JSON allows between tokens. -/
def isSpace (c : Char) : Bool := c == ' ' || c == '\t' || c == '\n' || c == '\r'

/-! ### Strings -/

def escaped? (c : Char) : Option Char :=
  if c = Char.ofNat 0x22 ∨ c = '\\' ∨ c = '/' then some c
  else if c = 'n' then some '\n'
  else if c = 'r' then some '\r'
  else if c = 't' then some '\t'
  else if c = 'b' then some '\x08'
  else if c = 'f' then some '\x0c'
  else none

def hex4? (a b c d : Char) : Option Nat := do
  let a ← Text.Hex.value? a
  let b ← Text.Hex.value? b
  let c ← Text.Hex.value? c
  let d ← Text.Hex.value? d
  some (((a * 16 + b) * 16 + c) * 16 + d)

/-- The code units up to the closing quotation mark, and the rest behind it. Control characters
stand for themselves nowhere. -/
def scanString : List Char → Option (List Nat × List Char)
  | [] => none
  | '\\' :: 'u' :: a :: b :: c :: d :: rest => do
    let unit ← hex4? a b c d
    let (units, rest) ← scanString rest
    some (unit :: units, rest)
  | '\\' :: c :: rest => do
    let c ← escaped? c
    let (units, rest) ← scanString rest
    some (c.toNat :: units, rest)
  | c :: rest =>
    if c = Char.ofNat 0x22 then some ([], rest)
    else if c.toNat < 0x20 ∨ c = '\\' then none
    else do
      let (units, rest) ← scanString rest
      some (c.toNat :: units, rest)

theorem length_scanString {cs rest : List Char} {units : List Nat}
    (h : scanString cs = some (units, rest)) : rest.length < cs.length := by
  fun_induction scanString cs generalizing units with
  | case1 => simp at h
  | case2 a b c d tail ih =>
    simp only [Option.bind_eq_bind, Option.bind_eq_some_iff] at h
    obtain ⟨_, _, ⟨us, r⟩, hr, h⟩ := h
    obtain ⟨rfl, rfl⟩ := by simpa using h
    have := ih hr
    simp only [List.length_cons]
    omega
  | case3 c tail _ ih =>
    simp only [Option.bind_eq_bind, Option.bind_eq_some_iff] at h
    obtain ⟨_, _, ⟨us, r⟩, hr, h⟩ := h
    obtain ⟨rfl, rfl⟩ := by simpa using h
    have := ih hr
    simp only [List.length_cons]
    omega
  | case4 tail => simp_all
  | case5 => simp at h
  | case6 c tail _ _ _ _ ih =>
    simp only [Option.bind_eq_bind, Option.bind_eq_some_iff] at h
    obtain ⟨⟨us, r⟩, hr, h⟩ := h
    obtain ⟨rfl, rfl⟩ := by simpa using h
    have := ih hr
    simp only [List.length_cons]
    omega

def isHighSurrogate (unit : Nat) : Bool := 0xD800 ≤ unit && unit ≤ 0xDBFF

def isLowSurrogate (unit : Nat) : Bool := 0xDC00 ≤ unit && unit ≤ 0xDFFF

/-- The characters of code units, where two surrogates in a row make one. A surrogate on its own
is no character. -/
def charsOfUnits? : List Nat → Option (List Char)
  | [] => some []
  | high :: low :: rest =>
    if isHighSurrogate high && isLowSurrogate low then
      (charsOfUnits? rest).map
        (Char.ofNat (0x10000 + (high - 0xD800) * 0x400 + (low - 0xDC00)) :: ·)
    else if isHighSurrogate high || isLowSurrogate high then none
    else (charsOfUnits? (low :: rest)).map (Char.ofNat high :: ·)
  | [unit] => if isHighSurrogate unit || isLowSurrogate unit then none else some [Char.ofNat unit]

/-! ### Numbers -/

def isDigit (c : Char) : Bool := '0' ≤ c && c ≤ '9'

/-- The digits before the point: a zero stands alone. -/
def scanWhole : List Char → Option (List Char × List Char)
  | [] => none
  | c :: rest =>
    if c = '0' then some (['0'], rest)
    else if isDigit c then some (c :: rest.takeWhile isDigit, rest.dropWhile isDigit)
    else none

theorem length_scanWhole {cs digits rest : List Char} (h : scanWhole cs = some (digits, rest)) :
    rest.length < cs.length := by
  unfold scanWhole at h
  split at h
  · simp at h
  · rename_i c tail
    have := Text.length_dropWhile_le isDigit tail
    split at h
    · obtain ⟨_, rfl⟩ := by simpa using h
      exact Nat.lt_succ_self _
    · split at h
      · obtain ⟨_, rfl⟩ := by simpa using h
        exact Nat.lt_succ_of_le this
      · simp at h

/-- A point and the digits behind it, if there are any. -/
def scanFraction : List Char → List Char × List Char
  | '.' :: rest =>
    if (rest.takeWhile isDigit).isEmpty then ([], '.' :: rest)
    else (rest.takeWhile isDigit, rest.dropWhile isDigit)
  | rest => ([], rest)

theorem length_scanFraction (cs : List Char) : (scanFraction cs).2.length ≤ cs.length := by
  unfold scanFraction
  split
  · rename_i tail
    split
    · exact Nat.le_refl _
    · exact Nat.le_succ_of_le (Text.length_dropWhile_le isDigit tail)
  · exact Nat.le_refl _

/-- The exponent behind a mark and perhaps a sign. -/
def scanExponent : List Char → Option Int × List Char
  | [] => (none, [])
  | mark :: rest =>
    let (negative, digits) :=
      match rest with
      | '-' :: digits => (true, digits)
      | '+' :: digits => (false, digits)
      | digits => (false, digits)
    let found := digits.takeWhile isDigit
    if (mark == 'e' || mark == 'E') && !found.isEmpty then
      let n : Int := Text.Decimal.ofDigits found
      (some (if negative then -n else n), digits.dropWhile isDigit)
    else (none, mark :: rest)

theorem length_scanExponent (cs : List Char) : (scanExponent cs).2.length ≤ cs.length := by
  unfold scanExponent
  split
  · simp
  · rename_i mark rest
    split
    rename_i negative digits hsign
    have hdigits : digits.length ≤ rest.length := by
      split at hsign <;> simp_all
    have hrest := Text.length_dropWhile_le isDigit digits
    dsimp only
    split
    · exact Nat.le_succ_of_le (Nat.le_trans hrest hdigits)
    · exact Nat.le_refl _

def decimalOf (digits : List Char) (exponent : Int) : Number :=
  let size := (digits.dropWhile (· == '0')).length + exponent
  .ofDecimal (Text.Decimal.ofDigits digits) size exponent

def scanMagnitude (cs : List Char) : Option (Number × List Char) := do
  let (whole, rest) ← scanWhole cs
  let (fraction, rest) := scanFraction rest
  let (exponent, rest) := scanExponent rest
  let value :=
    if fraction.isEmpty && exponent.isNone then .int (Text.Decimal.ofDigits whole)
    else decimalOf (whole ++ fraction) (exponent.getD 0 - fraction.length)
  some (value, rest)

theorem length_scanMagnitude {cs rest : List Char} {n : Number}
    (h : scanMagnitude cs = some (n, rest)) : rest.length < cs.length := by
  simp only [scanMagnitude, Option.bind_eq_bind, Option.bind_eq_some_iff] at h
  obtain ⟨⟨whole, afterWhole⟩, hw, h⟩ := h
  have hwhole := length_scanWhole hw
  have hfraction := length_scanFraction afterWhole
  have hexponent := length_scanExponent (scanFraction afterWhole).2
  simp only [Option.some.injEq, Prod.mk.injEq] at h
  obtain ⟨_, rfl⟩ := h
  omega

/-! ### Tokens -/

def names : List (String × Json) :=
  [("null", .null), ("true", .bool true), ("false", .bool false), ("NaN", .num .nan),
    ("Infinity", .num (.infinity false)), ("-Infinity", .num (.infinity true))]

def scanName (cs : List Char) : Option (Token × List Char) :=
  names.findSome? fun (name, value) =>
    (name.toList.isPrefixOf? cs).map fun rest => (.scalar value, rest)

theorem length_scanName {cs rest : List Char} {token : Token}
    (h : scanName cs = some (token, rest)) : rest.length < cs.length := by
  obtain ⟨⟨name, value⟩, hin, h⟩ := List.exists_of_findSome?_eq_some h
  obtain ⟨r, hr, h⟩ := Option.map_eq_some_iff.1 h
  obtain ⟨_, rfl⟩ := by simpa using h
  have hname : ∀ p ∈ names, 0 < p.1.toList.length := by decide
  have hlead : 0 < name.toList.length := hname _ hin
  rw [Text.isPrefixOf?_eq_some_iff.1 hr, List.length_append]
  omega

def scanNumber : List Char → Option (Token × List Char)
  | '-' :: rest => (scanMagnitude rest).map fun (n, rest) => (.scalar (.num n.negate), rest)
  | cs => (scanMagnitude cs).map fun (n, rest) => (.scalar (.num n), rest)

theorem length_scanNumber {cs rest : List Char} {token : Token}
    (h : scanNumber cs = some (token, rest)) : rest.length < cs.length := by
  unfold scanNumber at h
  split at h
  · rename_i tail
    obtain ⟨⟨n, r⟩, hn, h⟩ := Option.map_eq_some_iff.1 h
    simp only [Prod.mk.injEq] at h
    obtain ⟨_, rfl⟩ := h
    have := length_scanMagnitude hn
    simp only [List.length_cons]
    omega
  · obtain ⟨⟨n, r⟩, hn, h⟩ := Option.map_eq_some_iff.1 h
    simp only [Prod.mk.injEq] at h
    obtain ⟨_, rfl⟩ := h
    exact length_scanMagnitude hn

def scanText (cs : List Char) : Option (Token × List Char) := do
  let (units, rest) ← scanString cs
  let chars ← charsOfUnits? units
  some (.scalar (.str (.ofList chars)), rest)

theorem length_scanText {cs rest : List Char} {token : Token}
    (h : scanText cs = some (token, rest)) : rest.length < cs.length := by
  simp only [scanText, Option.bind_eq_bind, Option.bind_eq_some_iff] at h
  obtain ⟨⟨units, r⟩, hu, _, _, h⟩ := h
  simp only [Option.some.injEq, Prod.mk.injEq] at h
  obtain ⟨_, rfl⟩ := h
  exact length_scanString hu

/-- The token that a text starts with, and the rest behind it. -/
def scanToken : List Char → Option (Token × List Char)
  | [] => none
  | c :: rest =>
    if c = '[' then some (.openArray, rest)
    else if c = ']' then some (.closeArray, rest)
    else if c = Char.ofNat 0x7B then some (.openObject, rest)
    else if c = Char.ofNat 0x7D then some (.closeObject, rest)
    else if c = ':' then some (.colon, rest)
    else if c = ',' then some (.comma, rest)
    else if c = Char.ofNat 0x22 then scanText rest
    else (scanName (c :: rest)).or (scanNumber (c :: rest))

/-- A token is never empty. -/
theorem length_scanToken {cs rest : List Char} {token : Token}
    (h : scanToken cs = some (token, rest)) : rest.length < cs.length := by
  unfold scanToken at h
  split at h
  · simp at h
  · rename_i c tail
    have hsign {t : Token} (h : some (t, tail) = some (token, rest)) :
        rest.length < (c :: tail).length := by
      obtain ⟨_, rfl⟩ := by simpa using h
      simp
    repeat' split at h
    all_goals first
      | exact hsign h
      | skip
    · have := length_scanText h
      simp only [List.length_cons]
      omega
    · rcases Option.or_eq_some_iff.1 h with h | ⟨_, h⟩
      · exact length_scanName h
      · exact length_scanNumber h

/-- The tokens of a text, unless something in it is none. -/
def tokens? : List Char → Option (List Token)
  | [] => some []
  | c :: rest =>
    if isSpace c then tokens? rest
    else
      match _h : scanToken (c :: rest) with
      | none => none
      | some (token, after) => (tokens? after).map (token :: ·)
termination_by cs => cs.length
decreasing_by
  · simp
  · exact length_scanToken _h

end RamlSchema.Json
