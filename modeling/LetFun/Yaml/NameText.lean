import LetFun.Text.Utf8
import LetFun.Yaml.ScalarText
import LetFun.Yaml.Token
/-!
# Names, tags and directives

How anchors, aliases, tags and directives are read from a text. Each reader starts behind the
indicator that announces it.
-/

namespace LetFun.Yaml

def isNameChar (c : Char) : Bool :=
  c.isAlphanum || c = '-' || c = '_'

def isTagChar (c : Char) : Bool :=
  c.isAlphanum || "-;/?:@&=+$,_.!~*\x27()[]%".contains c

def endsAnchor (c? : Option Char) : Bool :=
  c?.all fun c => endsIndicator (some c) || "?:,]\x7d%@\x60".contains c

def anchorName (c : Cursor) : Except Fault (String × Cursor) :=
  let (name, d) := c.takeWhile isNameChar
  if name.isEmpty || !endsAnchor d.peek then .error .malformed else .ok (String.ofList name, d)

def percentBytes : List Char → Except Fault (List UInt8 × List Char)
  | '%' :: a :: b :: rest =>
    match Hex.ofDigits? [a, b] with
    | none => .error .malformed
    | some n => do
      let (bytes, after) ← percentBytes rest
      return (n.toUInt8 :: bytes, after)
  | '%' :: _ => .error .malformed
  | rest => .ok ([], rest)

/-- The text of tag characters in which each run of percent escapes stands for the text that its
bytes encode. -/
def percentDecode (cs : List Char) : Except Fault (List Char) :=
  match cs with
  | [] => .ok []
  | '%' :: rest => do
    let (bytes, after) ← percentBytes ('%' :: rest)
    match Utf8.decode bytes with
    | .error _ => .error .malformed
    | .ok text =>
      if _h : after.length ≤ rest.length then
        return text.toList ++ (← percentDecode after)
      else .error .malformed
  | c :: rest => do return c :: (← percentDecode rest)
termination_by cs.length
decreasing_by
  · exact Nat.lt_succ_of_le _h
  · exact Nat.lt_succ_self _

def tagChars (c : Cursor) : Except Fault (String × Cursor) := do
  let (chars, d) := c.takeWhile isTagChar
  if chars.isEmpty then .error .malformed
  else return (String.ofList (← percentDecode chars), d)

/-- Reads a tag handle from its exclamation mark on: one mark before a space, or two with a name
between them. -/
def tagHandle (c : Cursor) : Except Fault (String × Cursor) :=
  if c.peek ≠ some '!' then .error .malformed
  else if c.peekAt 1 = some ' ' then .ok ("!", c.next)
  else
    let (name, d) := c.next.takeWhile isNameChar
    if d.peek = some '!' then .ok (String.ofList ('!' :: name ++ ['!']), d.next)
    else .error .malformed

def hasSecondMark (cs : List Char) : Bool :=
  (cs.takeWhile fun ch => !endsWord (some ch)).contains '!'

/-- Reads a tag from its exclamation mark on: in full between angle brackets, the mark alone, or a
suffix after a handle. -/
def tagText (c : Cursor) : Except Fault (TagText × Cursor) := do
  let (tag, d) ←
    if c.peekAt 1 = some '<' then do
      let (suffix, d) ← tagChars (c.advance 2)
      if d.peek = some '>' then pure (TagText.mk none suffix, d.next) else .error .malformed
    else if endsIndicator (c.peekAt 1) then
      pure (TagText.mk none "!", c.next)
    else do
      let (handle, d) ←
        if hasSecondMark (c.rest.drop 1) then tagHandle c else pure ("!", c.next)
      let (suffix, e) ← tagChars d
      pure (TagText.mk (some handle) suffix, e)
  if endsWord d.peek then return (tag, d) else .error .malformed

def versionNumber (c : Cursor) : Except Fault (Nat × Cursor) :=
  let (digits, d) := c.takeWhile Char.isDigit
  if digits.isEmpty then .error .malformed
  else if digitLimit < digits.length then .error (.tooManyDigits digits.length)
  else .ok (ofDigits digits, d)

def versionDirective (c : Cursor) : Except Fault (Directive × Cursor) := do
  let (major, d) ← versionNumber c.skipSpaces
  if d.peek ≠ some '.' then .error .malformed
  else
    let (_, e) ← versionNumber d.next
    if endsWord e.peek then return (.version major, e) else .error .malformed

def tagDirective (c : Cursor) : Except Fault (Directive × Cursor) := do
  let (handle, d) ← tagHandle c.skipSpaces
  if d.peek ≠ some ' ' then .error .malformed
  else
    let (expansion, e) ← tagChars d.skipSpaces
    if endsWord e.peek then return (.tag handle expansion, e) else .error .malformed

def directiveText (c : Cursor) : Except Fault (Directive × Cursor) := do
  let (name, d) := c.takeWhile isNameChar
  if name.isEmpty || !endsWord d.peek then .error .malformed
  else
    let (directive, e) ←
      if name = "YAML".toList then versionDirective d
      else if name = "TAG".toList then tagDirective d
      else pure (.other, d.skipWhile fun ch => !isBreak ch)
    return (directive, ← finishLine e)

end LetFun.Yaml
