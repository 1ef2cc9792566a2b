import RamlSchema.Text.Basic
import RamlSchema.Text.Hex
import RamlSchema.Text.Printable

/-!
# Quoted notation

How a text or a list of texts is shown inside a message: between quotation marks, with characters
that cannot be printed as escapes.
-/

namespace RamlSchema.Text.Quoted

def apostrophe : Char := Char.ofNat 0x27

def quotationMark : Char := Char.ofNat 0x22

/-- The mark around a text: an apostrophe, unless the text holds apostrophes and no quotation
mark. -/
def markFor (cs : List Char) : Char :=
  if apostrophe ∈ cs ∧ quotationMark ∉ cs then quotationMark else apostrophe

/-- A code point as an escape of two, four or eight hexadecimal digits. -/
def codeEscape (code : Nat) : List Char :=
  if code < 0x100 then '\\' :: 'x' :: Hex.digits 2 code
  else if code < 0x10000 then '\\' :: 'u' :: Hex.digits 4 code
  else '\\' :: 'U' :: Hex.digits 8 code

def escape (mark c : Char) : List Char :=
  if c = mark ∨ c = '\\' then ['\\', c]
  else if c = '\t' then ['\\', 't']
  else if c = '\n' then ['\\', 'n']
  else if c = '\r' then ['\\', 'r']
  else if isPrintable c then [c]
  else codeEscape c.toNat

def quoteChars (cs : List Char) : List Char :=
  let mark := markFor cs
  mark :: cs.flatMap (escape mark) ++ [mark]

def quote (s : String) : String := .ofList (quoteChars s.toList)

def quoteList (texts : List String) : String :=
  "[" ++ joinWith ", " (texts.map quote) ++ "]"

end RamlSchema.Text.Quoted
