import RamlSchema.Text.Decimal
import RamlSchema.Text.Quoted

/-!
# File faults

Why an operation on files fails, in the words of the operating system.
-/

namespace RamlSchema.Files

inductive Cause where
  | missing
  | busy
  | exists
  | notDirectory
  | isDirectory
  | nameTooLong
  deriving DecidableEq, Repr

namespace Cause

def number : Cause → Nat
  | .missing => 2
  | .busy => 16
  | .exists => 17
  | .notDirectory => 20
  | .isDirectory => 21
  | .nameTooLong => 36

def text : Cause → String
  | .missing => "No such file or directory"
  | .busy => "Device or resource busy"
  | .exists => "File exists"
  | .notDirectory => "Not a directory"
  | .isDirectory => "Is a directory"
  | .nameTooLong => "File name too long"

end Cause

/-- A fault at a path, and at the other path where two are involved. A null character in a path is
refused before the operating system sees it, and a path that has to lie below a root is compared
with it part by part. -/
inductive Fault where
  | system (cause : Cause) (path : String) (other : Option String := none)
  | nullCharacter
  | notBelow (path root : String)
  deriving DecidableEq, Repr

def Fault.message : Fault → String
  | .system cause path other =>
    "[Errno " ++ Text.Decimal.nat cause.number ++ "] " ++ cause.text ++ ": " ++
      Text.Quoted.quote path ++
      match other with
      | some other => " -> " ++ Text.Quoted.quote other
      | none => ""
  | .nullCharacter => "embedded null byte"
  | .notBelow path root =>
    Text.Quoted.quote path ++ " is not in the subpath of " ++ Text.Quoted.quote root ++
      " OR one path is relative and the other is absolute."

end RamlSchema.Files
