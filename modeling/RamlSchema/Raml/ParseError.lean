import RamlSchema.Text.Decimal

/-!
# Faulty source files

Why a source file is no source of types, and the place that the message names.
-/

namespace RamlSchema.Raml

/-- The only fault of a text is a tab in the indentation of a line. A file may also not be readable
as text. -/
inductive ParseError where
  | tabIndentation (source : Option String) (line : Nat)
  | unreadable (source : String) (reason : String)
  deriving DecidableEq, Repr

namespace ParseError

def source? : ParseError → Option String
  | .tabIndentation source _ => source
  | .unreadable source _ => some source

def line? : ParseError → Option Nat
  | .tabIndentation _ line => some line
  | .unreadable _ _ => none

/-- A text behind the place that it is about. A line is named only together with its file. -/
def located (source : Option String) (line : Option Int) (text : String) : String :=
  match source.getD "", line with
  | "", _ => text
  | source, none => source ++ ": " ++ text
  | source, some line => source ++ ":" ++ Text.Decimal.int line ++ ": " ++ text

def problem : ParseError → String
  | .tabIndentation _ _ => "Tab character in indentation"
  | .unreadable _ reason => "Cannot read source file: " ++ reason

def message (error : ParseError) : String :=
  located error.source? (error.line?.map Int.ofNat) error.problem

end ParseError

end RamlSchema.Raml
