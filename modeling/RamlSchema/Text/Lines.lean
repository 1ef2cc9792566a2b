/-!
# Lines

A text cut at its line breaks. A carriage return and the line feed behind it are one break, and a
break at the end of the text starts no further line.
-/

namespace RamlSchema.Text

/-- Line feed, carriage return, the vertical and page breaks, the information separators down to
the record, the next-line control, and the Unicode line and paragraph separators. -/
def isLineBreak (c : Char) : Bool :=
  (0x0A ≤ c.toNat && c.toNat ≤ 0x0D) || (0x1C ≤ c.toNat && c.toNat ≤ 0x1E) ||
    c.toNat == 0x85 || c.toNat == 0x2028 || c.toNat == 0x2029

def consLine (c : Char) : List (List Char) → List (List Char)
  | [] => [[c]]
  | line :: rest => (c :: line) :: rest

def linesOfChars : List Char → List (List Char)
  | [] => []
  | '\r' :: '\n' :: rest => [] :: linesOfChars rest
  | c :: rest => if isLineBreak c then [] :: linesOfChars rest else consLine c (linesOfChars rest)

def lines (s : String) : List String := (linesOfChars s.toList).map String.ofList

end RamlSchema.Text
