/-!
# Tokens

The vocabulary of the language: the eight token types with their names and fixed spellings, and
the token with its half-open span of offsets.
-/

namespace LetFun

inductive TokenType where
  | letWord
  | functionWord
  | assign
  | leftParen
  | rightParen
  | leftCurly
  | rightCurly
  | identifier
deriving DecidableEq, Repr, Inhabited

namespace TokenType

def all : List TokenType :=
  [.letWord, .functionWord, .assign, .leftParen, .rightParen, .leftCurly, .rightCurly, .identifier]

def name : TokenType → String
  | .letWord => "Let"
  | .functionWord => "Function"
  | .assign => "Assign"
  | .leftParen => "LeftParen"
  | .rightParen => "RightParen"
  | .leftCurly => "LeftCurly"
  | .rightCurly => "RightCurly"
  | .identifier => "Identifier"

def ofName? (name : String) : Option TokenType :=
  all.find? (·.name = name)

theorem mem_all (t : TokenType) : t ∈ all := by
  cases t <;> decide

theorem name_injective {s t : TokenType} (h : s.name = t.name) : s = t := by
  cases s <;> cases t <;> first | rfl | exact absurd h (by decide)

theorem ofName?_name (t : TokenType) : ofName? t.name = some t := by
  cases t <;> decide

def keywords : List (String × TokenType) :=
  [("let", .letWord), ("function", .functionWord)]

/-- A word is a keyword when its whole text is one, and an identifier otherwise. -/
def ofWord (text : String) : TokenType :=
  (keywords.lookup text).getD .identifier

def ofSymbol? : Char → Option TokenType
  | '(' => some .leftParen
  | ')' => some .rightParen
  | '{' => some .leftCurly
  | '}' => some .rightCurly
  | '=' => some .assign
  | _ => none

end TokenType

/-- A token with the offsets of its first character and of the character after its last. A scanned
token has its text as value; one made by hand may have any value or none, and any offsets. -/
structure Token where
  type : TokenType
  value : Option String
  start : Int
  stop : Int
deriving DecidableEq, Repr

end LetFun
