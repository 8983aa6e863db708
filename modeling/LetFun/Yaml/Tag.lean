import LetFun.Yaml.Timestamp
/-!
# Tags

The tags of the core types, and the tag that the text of a plain scalar implies.
-/

namespace LetFun.Yaml

inductive Tag where
  | null
  | bool
  | int
  | float
  | binary
  | timestamp
  | str
  | seq
  | omap
  | pairs
  | set
  | map
  | merge
  | value
  | other (name : String)
deriving DecidableEq, Repr

namespace Tag

def corePart : String := "tag:yaml.org,2002:"

def core : List (String × Tag) :=
  [("null", .null), ("bool", .bool), ("int", .int), ("float", .float), ("binary", .binary),
   ("timestamp", .timestamp), ("str", .str), ("seq", .seq), ("omap", .omap), ("pairs", .pairs),
   ("set", .set), ("map", .map), ("merge", .merge), ("value", .value)]

def ofName (name : String) : Tag :=
  ((core.find? fun (short, _) => corePart ++ short = name).map (·.2)).getD (.other name)

/-! ## Implied tags -/

def boolWords : List (String × Bool) :=
  [("yes", true), ("no", false), ("true", true), ("false", false), ("on", true), ("off", false)]

def spellings (word : String) : List String :=
  [word, word.capitalize, word.map Char.toUpper]

def nullWords : List String :=
  ["~", "null", "Null", "NULL", ""]

def isPart (base : Nat) (c : Char) : Bool :=
  isDigitBelow base c || c = '_'

def isSixties : List Char → Bool
  | ':' :: a :: b :: rest =>
    if b = ':' then a.isDigit && isSixties (b :: rest)
    else a.isDigit && a < '6' && b.isDigit && (rest.isEmpty || isSixties rest)
  | [':', a] => a.isDigit
  | _ => false

def isInt (cs : List Char) : Bool :=
  match (splitSign cs).2 with
  | ['0'] => true
  | '0' :: 'b' :: digits => !digits.isEmpty && digits.all (isPart 2)
  | '0' :: 'x' :: digits => !digits.isEmpty && digits.all (isPart 16)
  | '0' :: digits => digits.all (isPart 8)
  | d :: rest =>
    let tail := rest.dropWhile (isPart 10)
    d.isDigit && (tail.isEmpty || isSixties tail)
  | [] => false

def isExponent : List Char → Bool
  | [] => true
  | e :: sign :: digits =>
    (e = 'e' || e = 'E') && (sign = '+' || sign = '-') && !digits.isEmpty && digits.all Char.isDigit
  | _ => false

def isFloat (cs : List Char) : Bool :=
  let unsigned := (splitSign cs).2
  match unsigned with
  | [] => false
  | '.' :: rest =>
    let word := String.ofList rest
    word = "inf" || word = "Inf" || word = "INF" ||
      cs.head? = some '.' &&
        (word = "nan" || word = "NaN" || word = "NAN" ||
          rest.head?.any Char.isDigit && isExponent (rest.dropWhile (isPart 10)))
  | d :: _ =>
    let beforePoint := unsigned.takeWhile (· ≠ '.')
    let sixties := beforePoint.dropWhile (isPart 10)
    match unsigned.dropWhile (· ≠ '.') with
    | '.' :: fraction =>
      let tail := fraction.dropWhile (isPart 10)
      d.isDigit && if sixties.isEmpty then isExponent tail else isSixties sixties && tail.isEmpty
    | _ => false

def dropFinalBreak (cs : List Char) : List Char :=
  if cs.getLast? = some '\n' then cs.dropLast else cs

/-- The tag that the text of a scalar without a tag implies. -/
def implied (text : Text) : Tag :=
  let cs := dropFinalBreak text.chars
  let word := String.ofList cs
  if (boolWords.flatMap fun (w, _) => spellings w).contains word then .bool
  else if isFloat cs then .float
  else if isInt cs then .int
  else if word = "<<" then .merge
  else if nullWords.contains word && text ≠ "\n" then .null
  else if Timestamp.isImplicit cs then .timestamp
  else if word = "=" then .value
  else if word = "!" || word = "&" || word = "*" then .other "tag:yaml.org,2002:yaml"
  else .str

end Tag

end LetFun.Yaml
