import RamlSchema.Json.Printer
import RamlSchema.Text.Quoted

/-!
# Values in messages

How a message shows a value: texts in quoted notation, and lists and objects in their brackets.
-/

namespace RamlSchema.Json

def shownNumber : Number → List Char
  | .infinity negative => (if negative then ['-'] else []) ++ "inf".toList
  | .nan => "nan".toList
  | n => printNumber n

mutual

def shownChars : Json → List Char
  | .null => "None".toList
  | .bool true => "True".toList
  | .bool false => "False".toList
  | .num n => shownNumber n
  | .str s => Text.Quoted.quoteChars s.toList
  | .arr items => '[' :: shownItems items ++ [']']
  | .obj members => Char.ofNat 0x7B :: shownMembers members ++ [Char.ofNat 0x7D]

def shownItems : List Json → List Char
  | [] => []
  | [item] => shownChars item
  | item :: items => shownChars item ++ ',' :: ' ' :: shownItems items

def shownMembers : List (String × Json) → List Char
  | [] => []
  | [(key, value)] => Text.Quoted.quoteChars key.toList ++ ':' :: ' ' :: shownChars value
  | (key, value) :: members =>
    Text.Quoted.quoteChars key.toList ++ ':' :: ' ' :: shownChars value ++
      ',' :: ' ' :: shownMembers members

end

def shown (value : Json) : String := .ofList (shownChars value)

def kindName : Json → String
  | .null => "NoneType"
  | .bool _ => "bool"
  | .num (.int _) => "int"
  | .num _ => "float"
  | .str _ => "str"
  | .arr _ => "list"
  | .obj _ => "dict"

end RamlSchema.Json
