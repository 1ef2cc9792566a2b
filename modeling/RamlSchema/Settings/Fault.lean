import RamlSchema.Json.Shown

/-!
# Unusable settings

A setting is kept as it was given and looked at where it is used, so a value of the wrong kind is
refused there and in the words of that use. A few names belong to the settings themselves, and what
is stored under one of them is refused on loading or gets in the way later.
-/

namespace RamlSchema

inductive SettingFault where
  | unknownConvention (value : Json)
  | unknownMode (value : String)
  | noMember (value : Json) (name : String)
  | unset (name : String)
  | unwritable (name : String)
  | noKind (value : Json)
  | noStore (value : Json)
  | noAction (value : Json)
  | notIterable (value : Json)
  | noName (value : Json)
  | noEnding (value : Json)
  | noPath (value : Json)
  | unordered (sign : String) (value : Json)
  | uncountable (value : Json)
  deriving DecidableEq

/-- What kind of mistake a fault is: a value outside a fixed list, a value without the part that is
asked for, or a value of the wrong kind. -/
inductive SettingFault.Kind where
  | value
  | member
  | kind
  deriving DecidableEq

namespace SettingFault

def kind : SettingFault → Kind
  | .unknownConvention _ | .unknownMode _ => .value
  | .noMember _ _ | .unset _ | .unwritable _ => .member
  | _ => .kind

def message : SettingFault → String
  | .unknownConvention value => value.shown ++ " is not a valid NamingConvention"
  | .unknownMode value => Text.Quoted.quote value ++ " is not a valid OutputMode"
  | .noMember value name =>
    "'" ++ value.kindName ++ "' object has no attribute '" ++ name ++ "'"
  | .unset name => "'ConverterConfig' object has no attribute '" ++ name ++ "'"
  | .unwritable name => "attribute '" ++ name ++ "' of 'ConverterConfig' objects is not writable"
  | .noKind value => "__class__ must be set to a class, not '" ++ value.kindName ++ "' object"
  | .noStore value => "__dict__ must be set to a dictionary, not a '" ++ value.kindName ++ "'"
  | .noAction value => "'" ++ value.kindName ++ "' object is not callable"
  | .notIterable value => "'" ++ value.kindName ++ "' object is not iterable"
  | .noName value => "unhashable type: '" ++ value.kindName ++ "'"
  | .noEnding value => "endswith first arg must be str or a tuple of str, not " ++ value.kindName
  | .noPath value =>
    "unsupported operand type(s) for /: 'PosixPath' and '" ++ value.kindName ++ "'"
  | .unordered sign value =>
    "'" ++ sign ++ "' not supported between instances of '" ++ value.kindName ++ "' and 'int'"
  | .uncountable value =>
    "'" ++ value.kindName ++ "' object cannot be interpreted as an integer"

end SettingFault

end RamlSchema
