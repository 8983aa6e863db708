import LetFun.Text.Quoted
import LetFun.Token
/-!
# Scanning text into tokens

A word is a maximal run of ASCII letters; the symbols stand for themselves. A space separates
tokens, and so does every other character, which strict scanning refuses. Offsets count
characters.
-/

namespace LetFun

def isLetter (c : Char) : Bool :=
  c.isAlpha

structure UnrecognizedCharacter where
  character : Char
  position : Nat
deriving DecidableEq, Repr

def UnrecognizedCharacter.message (e : UnrecognizedCharacter) : String :=
  s!"Offset {e.position}: Unrecognized character " ++ quote e.character.toString

namespace Token

/-- The token for the word whose letters end just before offset `stop`, given last letter first. -/
def ofWord (stop : Nat) (letters : List Char) : Token :=
  let text := String.ofList letters.reverse
  ⟨TokenType.ofWord text, some text, stop - letters.length, stop⟩

def pending (stop : Nat) : List Char → List Token
  | [] => []
  | c :: cs => [ofWord stop (c :: cs)]

/-- What a character that is not a letter contributes at offset `pos`: its token if it is a symbol,
and nothing if it only separates. Strict scanning lets nothing but a space separate. -/
def ofSeparator (strict : Bool) (pos : Nat) (c : Char) :
    Except UnrecognizedCharacter (List Token) :=
  match TokenType.ofSymbol? c with
  | some type => .ok [⟨type, some (String.singleton c), pos, pos + 1⟩]
  | none => if strict && c ≠ ' ' then .error ⟨c, pos⟩ else .ok []

/-- The tokens of text that starts at offset `pos`, where `word` holds the letters that stand right
before it, last one first. -/
def scanFrom (strict : Bool) (pos : Nat) (word : List Char) :
    List Char → Except UnrecognizedCharacter (List Token)
  | [] => .ok (pending pos word)
  | c :: cs =>
    if isLetter c then
      scanFrom strict (pos + 1) (c :: word) cs
    else do
      let here ← ofSeparator strict pos c
      let later ← scanFrom strict (pos + 1) [] cs
      return pending pos word ++ here ++ later

def scan (text : List Char) (strict : Bool) : Except UnrecognizedCharacter (List Token) :=
  scanFrom strict 0 [] text

end Token

/-- The tokens of a source text, in order. Without `strict`, characters that belong to no token are
dropped; with it, the first of them is an error. -/
def tokenize (source : String) (strict : Bool) : Except UnrecognizedCharacter (List Token) :=
  Token.scan source.toList strict

end LetFun
