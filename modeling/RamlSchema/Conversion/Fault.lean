import RamlSchema.Files.Fault
import RamlSchema.Raml.ParseError
import RamlSchema.Settings.Fault

/-!
# Failed conversions

Why a conversion stops, or why a document is not written.
-/

namespace RamlSchema.Conversion

inductive Fault where
  | source (error : Raml.ParseError)
  | files (fault : Files.Fault)
  | setting (fault : SettingFault)
  | outputExists (path : String)
  | notReadBack
  | noDialect
  deriving DecidableEq

def Fault.message : Fault → String
  | .source error => error.message
  | .files fault => fault.message
  | .setting fault => fault.message
  | .outputExists path => "Output file already exists: " ++ path ++ ". Use force mode to overwrite."
  | .notReadBack => "Generated schema does not round-trip through JSON"
  | .noDialect => "Generated schema is missing its $schema dialect"

end RamlSchema.Conversion
