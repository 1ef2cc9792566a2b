import RamlSchema.Json.Basic
import RamlSchema.Number.Shortest
import RamlSchema.Text.Decimal
import RamlSchema.Text.Hex

/-!
# Printed documents

Documents as they are written to disk: two spaces of indentation for every level, one item or member
a line, and a line feed at the end. Only quotation marks, backslashes and control characters are
escaped.
-/

namespace RamlSchema.Json

def shortEscape? (c : Char) : Option Char :=
  if c = Char.ofNat 0x22 ∨ c = '\\' then some c
  else if c = '\n' then some 'n'
  else if c = '\r' then some 'r'
  else if c = '\t' then some 't'
  else if c = '\x08' then some 'b'
  else if c = '\x0c' then some 'f'
  else none

def escapeChar (c : Char) : List Char :=
  match shortEscape? c with
  | some e => ['\\', e]
  | none => if c.toNat < 0x20 then '\\' :: 'u' :: Text.Hex.digits 4 c.toNat else [c]

def printString (cs : List Char) : List Char :=
  Char.ofNat 0x22 :: cs.flatMap escapeChar ++ [Char.ofNat 0x22]

/-! ### Numbers -/

/-- Digits with the last `places` of them behind a point. -/
def pointed (places : Nat) (digits : List Char) : List Char :=
  let padded := List.replicate (places + 1 - digits.length) '0' ++ digits
  padded.take (padded.length - places) ++ '.' :: padded.drop (padded.length - places)

/-- Digits with a point behind the first if others follow, and an exponent of two digits or more. -/
def scientific (digits : List Char) (exponent : Int) : List Char :=
  let magnitude := Text.Decimal.digits exponent.natAbs
  let shown := if digits.length = 1 then digits else pointed (digits.length - 1) digits
  shown ++ 'e' :: (if exponent < 0 then '-' else '+') ::
    List.replicate (2 - magnitude.length) '0' ++ magnitude

/-- Digits with an exponent of ten. The point stands in its place if that is not far from the first
digit, and otherwise the exponent is written. -/
def printDecimal (digits : List Char) (exponent : Int) : List Char :=
  let point := digits.length + exponent
  if point ≤ -4 ∨ 16 < point then scientific digits (point - 1)
  else if exponent < 0 then pointed exponent.natAbs digits
  else digits ++ List.replicate exponent.toNat '0' ++ ".0".toList

/-- A binary number in the fewest digits that lead back to it. -/
def printBinary (x : Binary) : List Char :=
  let (digits, exponent) := x.shortest
  (if x.negative then ['-'] else []) ++ printDecimal (Text.Decimal.digits digits) exponent

def printNumber : Number → List Char
  | .int n => Text.Decimal.signed n
  | .binary x => printBinary x
  | .infinity negative => (if negative then ['-'] else []) ++ "Infinity".toList
  | .nan => "NaN".toList

/-! ### Documents -/

def newLine (level : Nat) : List Char := '\n' :: List.replicate (2 * level) ' '

mutual

/-- A value whose first line is already indented to its level. -/
def printAt (level : Nat) : Json → List Char
  | .null => "null".toList
  | .bool true => "true".toList
  | .bool false => "false".toList
  | .num n => printNumber n
  | .str s => printString s.toList
  | .arr [] => ['[', ']']
  | .arr (item :: items) =>
    '[' :: newLine (level + 1) ++ printAt (level + 1) item ++ printItems (level + 1) items ++
      newLine level ++ [']']
  | .obj [] => [Char.ofNat 0x7B, Char.ofNat 0x7D]
  | .obj ((key, value) :: members) =>
    Char.ofNat 0x7B :: newLine (level + 1) ++ printString key.toList ++ ':' :: ' ' ::
      printAt (level + 1) value ++ printMembers (level + 1) members ++
      newLine level ++ [Char.ofNat 0x7D]

def printItems (level : Nat) : List Json → List Char
  | [] => []
  | item :: items => ',' :: newLine level ++ printAt level item ++ printItems level items

def printMembers (level : Nat) : List (String × Json) → List Char
  | [] => []
  | (key, value) :: members =>
    ',' :: newLine level ++ printString key.toList ++ ':' :: ' ' :: printAt level value ++
      printMembers level members

end

/-- The text of a document, without a line feed at its end. -/
def pretty (document : Json) : String := .ofList (printAt 0 document)

/-- The content of the file that holds a document. -/
def print (document : Json) : String := .ofList (printAt 0 document ++ ['\n'])

end RamlSchema.Json
