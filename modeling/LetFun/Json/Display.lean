import LetFun.Json
import LetFun.Number.FloatText
import LetFun.Text.Quoted
/-!
# Values in messages

The form in which JSON values are shown inside messages: `None`, `True` and `False` for the words,
text in the quotes of `Text.quoted`, and items and members separated by a comma and a space.
-/

namespace LetFun.Json

mutual

def display : Json → String
  | .null => "None"
  | .bool true => "True"
  | .bool false => "False"
  | .integer i => toString i
  | .float x => floatText x
  | .string t => t.quoted
  | .array items => "[" ++ ", ".intercalate (displayItems items) ++ "]"
  | .object members => "\x7b" ++ ", ".intercalate (displayMembers members) ++ "\x7d"

def displayItems : List Json → List String
  | [] => []
  | item :: items => display item :: displayItems items

def displayMembers : List (Text × Json) → List String
  | [] => []
  | (key, value) :: members => (key.quoted ++ ": " ++ display value) :: displayMembers members

end

end LetFun.Json
