import LetFun.Token.Scan
import LetFun.Tree.Parse
/-!
# Source texts

A source text is scanned as a whole before its tokens are parsed, so that an error of its characters
comes before all errors of its syntax.
-/

namespace LetFun

inductive SourceError where
  | character (error : UnrecognizedCharacter)
  | grammar (error : ParseError)
deriving DecidableEq, Repr

def SourceError.message : SourceError → String
  | .character e => e.message
  | .grammar e => e.message

def parseSource [CallStack] (source : String) (strict : Bool) : Except SourceError Program := do
  let tokens ← (tokenize source strict).mapError .character
  (parse tokens).mapError .grammar

end LetFun
