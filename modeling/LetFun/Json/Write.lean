import LetFun.Json
import LetFun.Number.FloatText
import LetFun.Number.Hex
import LetFun.Number.Integer
/-!
# Writing JSON text

JSON text in ASCII, either compact or laid out with one item to a line. Writers put their text in
front of a given rest. A value has a text if arrays and objects nest in it only as deep as the
writer has room for, and its integers can be shown.
-/

namespace LetFun.Json

/-- How the text of arrays and objects is spread over lines: not at all, or with `width` more spaces
for each level. -/
inductive Layout where
  | compact
  | indented (width : Nat)
deriving DecidableEq, Repr

namespace Layout

def lineBreak : Layout → (depth : Nat) → List Char
  | .compact, _ => []
  | .indented width, depth => '\n' :: List.replicate (width * depth) ' '

def colon : Layout → List Char
  | .compact => [':']
  | .indented _ => [':', ' ']

end Layout

def unitEscape (n : Nat) : List Char :=
  '\\' :: 'u' :: Hex.digits 4 n

/-- A code point inside a string. All characters outside the ASCII range from space to tilde are
escaped, those above U+FFFF as a pair of surrogates. -/
def writePoint : CodePoint → List Char
  | .surrogate offset => unitEscape (0xD800 + offset)
  | .scalar c =>
    if c = '\x22' then ['\\', '\x22']
    else if c = '\\' then ['\\', '\\']
    else if c = '\n' then ['\\', 'n']
    else if c = '\r' then ['\\', 'r']
    else if c = '\t' then ['\\', 't']
    else if c = '\x08' then ['\\', 'b']
    else if c = '\x0c' then ['\\', 'f']
    else if ' ' ≤ c ∧ c ≤ '~' then [c]
    else if c.toNat < 0x10000 then unitEscape c.toNat
    else
      let n := c.toNat - 0x10000
      unitEscape (0xD800 + n / 1024) ++ unitEscape (0xDC00 + n % 1024)

def writeString (t : Text) (rest : List Char) : List Char :=
  '\x22' :: (t.flatMap writePoint ++ '\x22' :: rest)

def writeFloat (x : Float) : List Char :=
  if x.isNaN then "NaN".toList
  else if x.isInf then (if x < 0 then "-Infinity".toList else "Infinity".toList)
  else (floatText x).toList

mutual

def write (layout : Layout) (depth : Nat) : Json → List Char → List Char
  | .null, rest => "null".toList ++ rest
  | .bool true, rest => "true".toList ++ rest
  | .bool false, rest => "false".toList ++ rest
  | .integer i, rest => (toString i).toList ++ rest
  | .float x, rest => writeFloat x ++ rest
  | .string t, rest => writeString t rest
  | .array [], rest => '[' :: ']' :: rest
  | .array (item :: items), rest =>
    '[' :: (layout.lineBreak (depth + 1) ++
      write layout (depth + 1) item
        (writeItems layout (depth + 1) items (layout.lineBreak depth ++ ']' :: rest)))
  | .object [], rest => '\x7b' :: '\x7d' :: rest
  | .object ((key, value) :: members), rest =>
    '\x7b' :: (layout.lineBreak (depth + 1) ++
      writeString key (layout.colon ++
        write layout (depth + 1) value
          (writeMembers layout (depth + 1) members (layout.lineBreak depth ++ '\x7d' :: rest))))

def writeItems (layout : Layout) (depth : Nat) : List Json → List Char → List Char
  | [], rest => rest
  | item :: items, rest =>
    ',' :: (layout.lineBreak depth ++
      write layout depth item (writeItems layout depth items rest))

def writeMembers (layout : Layout) (depth : Nat) : List (Text × Json) → List Char → List Char
  | [], rest => rest
  | (key, value) :: members, rest =>
    ',' :: (layout.lineBreak depth ++
      writeString key (layout.colon ++
        write layout depth value (writeMembers layout depth members rest)))

end

/-! ## Values without a text -/

inductive WriteError where
  | tooDeep
  | tooManyDigits
deriving DecidableEq, Repr

mutual

/-- Checks that a value has a text, with room for `room` arrays and objects inside one another. -/
def check : (room : Nat) → Json → Except WriteError Unit
  | _, .integer i => if isShowable i then .ok () else .error .tooManyDigits
  | 0, .array _ => .error .tooDeep
  | room + 1, .array items => checkItems room items
  | 0, .object _ => .error .tooDeep
  | room + 1, .object members => checkMembers room members
  | _, _ => .ok ()

def checkItems (room : Nat) : List Json → Except WriteError Unit
  | [] => .ok ()
  | item :: items => do
    check room item
    checkItems room items

def checkMembers (room : Nat) : List (Text × Json) → Except WriteError Unit
  | [] => .ok ()
  | (_, value) :: members => do
    check room value
    checkMembers room members

end

def render (layout : Layout) (v : Json) : String :=
  String.ofList (write layout 0 v [])

end LetFun.Json
