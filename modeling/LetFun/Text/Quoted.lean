import LetFun.Number.Hex
import LetFun.Text.CodePoint
import LetFun.Text.Printable
/-!
# Quoted text

Text as it is shown inside messages: between single quotes, or between double quotes when it has
single quotes and no double ones. The quote in use and the backslash are escaped, and so is every
code point without a visible form.
-/

namespace LetFun

namespace Text

def quoteMark (t : Text) : Char :=
  if CodePoint.scalar '\x27' ∈ t ∧ CodePoint.scalar '\x22' ∉ t then '\x22' else '\x27'

/-- The escape for a code point without a visible form, as short as its number allows. -/
def numericEscape (n : Nat) : List Char :=
  if n < 0x100 then '\\' :: 'x' :: Hex.digits 2 n
  else if n < 0x10000 then '\\' :: 'u' :: Hex.digits 4 n
  else '\\' :: 'U' :: Hex.digits 8 n

def quotedPoint (mark : Char) : CodePoint → List Char
  | .surrogate offset => numericEscape (0xD800 + offset)
  | .scalar c =>
    if c = mark ∨ c = '\\' then ['\\', c]
    else if c = '\n' then ['\\', 'n']
    else if c = '\r' then ['\\', 'r']
    else if c = '\t' then ['\\', 't']
    else if isPrintable c then [c]
    else numericEscape c.toNat

def quoted (t : Text) : String :=
  let mark := quoteMark t
  String.ofList (mark :: t.flatMap (quotedPoint mark) ++ [mark])

/-- Text as it is printed, with an escape for each surrogate. -/
def printed (t : Text) : String :=
  String.ofList (t.flatMap fun
    | .scalar c => [c]
    | .surrogate offset => numericEscape (0xD800 + offset))

end Text

def quote (s : String) : String :=
  (Text.ofString s).quoted

end LetFun
