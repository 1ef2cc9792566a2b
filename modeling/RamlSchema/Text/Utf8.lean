import RamlSchema.Text.Decimal
import RamlSchema.Text.Hex

/-!
# UTF-8

Text as bytes and back. Reading names the first flaw in a sequence of bytes that is no text, with
the bytes that were taken for the start of a character.
-/

namespace RamlSchema.Text.Utf8

def encodeChars (cs : List Char) : List UInt8 := cs.flatMap String.utf8EncodeChar

def encode (s : String) : List UInt8 := encodeChars s.toList

def size (s : String) : Nat := (encode s).length

/-- Why a sequence of bytes is no character. -/
inductive Flaw where
  | start
  | continuation
  | truncated
  deriving DecidableEq, Repr

def Flaw.message : Flaw → String
  | .start => "invalid start byte"
  | .continuation => "invalid continuation byte"
  | .truncated => "unexpected end of data"

/-- The first flaw in a sequence of bytes. `bytes` are the ones from `position` on that fit the
beginning of a character, or the single byte that begins none. -/
structure Fault where
  position : Nat
  bytes : List UInt8
  flaw : Flaw
  deriving DecidableEq, Repr

def Fault.message (fault : Fault) : String :=
  let place :=
    match fault.bytes with
    | [byte] =>
      "byte 0x" ++ String.ofList (Hex.digits 2 byte.toNat) ++ " in position " ++
        Decimal.nat fault.position
    | bytes =>
      "bytes in position " ++ Decimal.nat fault.position ++ "-" ++
        Decimal.nat (fault.position + bytes.length - 1)
  "'utf-8' codec can't decode " ++ place ++ ": " ++ fault.flaw.message

/-- The ranges of the bytes behind a first byte. The second byte of some characters has a narrower
range, so that no character has a longer form and none lies outside Unicode. -/
def tailRanges? (first : UInt8) : Option (List (Nat × Nat)) :=
  let b := first.toNat
  let tail := (0x80, 0xBF)
  if b < 0x80 then some []
  else if b < 0xC2 then none
  else if b < 0xE0 then some [tail]
  else if b = 0xE0 then some [(0xA0, 0xBF), tail]
  else if b = 0xED then some [(0x80, 0x9F), tail]
  else if b < 0xF0 then some [tail, tail]
  else if b = 0xF0 then some [(0x90, 0xBF), tail, tail]
  else if b < 0xF4 then some [tail, tail, tail]
  else if b = 0xF4 then some [(0x80, 0x8F), tail, tail]
  else none

/-- The bytes that lie in the given ranges one by one, and the rest from the first that does not. -/
def takeTails : List (Nat × Nat) → List UInt8 → List UInt8 × List UInt8
  | (low, high) :: ranges, b :: bs =>
    if low ≤ b.toNat ∧ b.toNat ≤ high then
      let (found, rest) := takeTails ranges bs
      (b :: found, rest)
    else ([], b :: bs)
  | _, bs => ([], bs)

theorem length_takeTails (ranges : List (Nat × Nat)) (bs : List UInt8) :
    (takeTails ranges bs).2.length ≤ bs.length := by
  fun_induction takeTails ranges bs with
  | case1 low high ranges b bs _ found rest h ih => simp_all; omega
  | case2 => simp
  | case3 => simp

/-- The character of a first byte and the bytes behind it: the low bits of each in turn. -/
def charOf (first : UInt8) (tails : List UInt8) : Char :=
  let lead :=
    match tails.length with
    | 0 => first.toNat
    | 1 => first.toNat % 0x20
    | 2 => first.toNat % 0x10
    | _ => first.toNat % 0x08
  Char.ofNat (tails.foldl (fun code b => code * 0x40 + b.toNat % 0x40) lead)

/-- The characters of bytes that stand `position` bytes into a text. -/
def decodeFrom (position : Nat) : List UInt8 → Except Fault (List Char)
  | [] => .ok []
  | b :: bs =>
    match tailRanges? b with
    | none => .error ⟨position, [b], .start⟩
    | some ranges =>
      let found := (takeTails ranges bs).1
      let rest := (takeTails ranges bs).2
      have : rest.length ≤ bs.length := length_takeTails ranges bs
      if found.length = ranges.length then
        (decodeFrom (position + 1 + found.length) rest).map (charOf b found :: ·)
      else .error ⟨position, b :: found, if rest.isEmpty then .truncated else .continuation⟩
termination_by bs => bs.length
decreasing_by
  exact Nat.lt_succ_of_le this

def decode (bytes : List UInt8) : Except Fault String :=
  (decodeFrom 0 bytes).map String.ofList

end RamlSchema.Text.Utf8
