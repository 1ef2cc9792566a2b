/-!
# Blank characters

The spaces, tabs and line separators that surround a word without belonging to it, and text without
those at its ends. The zero-width space and the byte order mark are not among them.
-/

namespace RamlSchema.Text

/-- Control characters that separate, the space, and the Unicode space and line separators. -/
def isBlank (c : Char) : Bool :=
  (0x09 ≤ c.toNat && c.toNat ≤ 0x0D) || (0x1C ≤ c.toNat && c.toNat ≤ 0x20) ||
    c.toNat == 0x85 || c.toNat == 0xA0 || c.toNat == 0x1680 ||
    (0x2000 ≤ c.toNat && c.toNat ≤ 0x200A) || c.toNat == 0x2028 || c.toNat == 0x2029 ||
    c.toNat == 0x202F || c.toNat == 0x205F || c.toNat == 0x3000

def trimStartChars (cs : List Char) : List Char := cs.dropWhile isBlank

def trimEndChars (cs : List Char) : List Char := (cs.reverse.dropWhile isBlank).reverse

def trimChars (cs : List Char) : List Char := trimEndChars (trimStartChars cs)

def trim (s : String) : String := .ofList (trimChars s.toList)

def indentation (s : String) : Nat := (s.toList.takeWhile isBlank).length

end RamlSchema.Text
