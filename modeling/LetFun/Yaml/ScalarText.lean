import LetFun.Yaml.Cursor
import LetFun.Yaml.Fault
/-!
# The text of scalars

How the three notations of a scalar, plain, quoted and block, give its text. In plain and quoted
scalars a single line break is a space and further ones are kept; a block scalar is literal or
folded and ends its lines as its header asks.
-/

namespace LetFun.Yaml

def isSpaceOrTab (ch : Char) : Bool :=
  ch = ' ' || ch = '\t'

/-- What the line break `first` and the breaks after it leave in a scalar: a space for a lone line
feed, and otherwise the breaks, where a line feed that comes first is dropped. -/
def foldBreaks (first : Char) (breaks : List Char) : List Char :=
  if first ≠ '\n' then first :: breaks
  else if breaks.isEmpty then [' '] else breaks

/-! ## Plain scalars -/

def colonEnds (inFlow : Bool) (following : Option Char) : Bool :=
  endsIndicator following || inFlow && following.any (",[]\x7b\x7d".contains ·)

def plainChars (inFlow : Bool) : List Char → List Char
  | [] => []
  | ch :: rest =>
    if endsIndicator (some ch) then []
    else if ch = ':' && colonEnds inFlow rest.head? then []
    else if inFlow && ",?[]\x7b\x7d".contains ch then []
    else ch :: plainChars inFlow rest

def plainBreaks (c : Cursor) : Option (List Char) × Cursor :=
  match _h : c.skipSpaces.lineBreak? with
  | none => (some [], c.skipSpaces)
  | some (ch, d) =>
    if d.atMarker then (none, d)
    else
      let (breaks, e) := plainBreaks d
      (breaks.map (ch :: ·), e)
termination_by c.rest.length
decreasing_by
  have := Cursor.length_lineBreak?_lt _h
  have := c.length_skipWhile_le (· = ' ')
  unfold Cursor.skipSpaces at *
  omega

/-- What stands between two runs of a plain scalar, if the scalar can go on; and whether a line
ended there. -/
def plainGap (c : Cursor) : List Char × Cursor × Bool :=
  let (spaces, d) := c.takeWhile (· = ' ')
  match d.lineBreak? with
  | none => (spaces, d, false)
  | some (first, e) =>
    if e.atMarker then ([], e, true)
    else
      match plainBreaks e with
      | (none, f) => ([], f, true)
      | (some breaks, f) => (foldBreaks first breaks, f, true)

/-- The text of a plain scalar that goes on here after `gap`, the place after it, and whether a line
ended after its last run. -/
def plainFrom (inFlow : Bool) (minColumn : Nat) (gap : List Char) (lineEnded : Bool) (c : Cursor) :
    List Char × Cursor × Bool :=
  let run := plainChars inFlow c.rest
  if c.peek = some '#' || run.isEmpty then ([], c, lineEnded)
  else
    let (gap', d, lineEnded') := plainGap (c.advance run.length)
    if gap'.isEmpty || d.peek = some '#' || !inFlow && d.column < minColumn then
      (gap ++ run, d, lineEnded')
    else if _h : d.rest.length < c.rest.length then
      let (more, e, lineEnded'') := plainFrom inFlow minColumn gap' lineEnded' d
      (gap ++ run ++ more, e, lineEnded'')
    else (gap ++ run, d, lineEnded')
termination_by c.rest.length

/-! ## Quoted scalars -/

/-- The line breaks from here on, with the blanks before each of them dropped. A document marker may
not stand at the start of a line. -/
def quotedBreaks (c : Cursor) : Except Fault (List Char × Cursor) :=
  if c.atMarker then .error .malformed
  else
    match _h : (c.skipWhile isSpaceOrTab).lineBreak? with
    | none => .ok ([], c.skipWhile isSpaceOrTab)
    | some (ch, d) => do
      let (breaks, e) ← quotedBreaks d
      return (ch :: breaks, e)
termination_by c.rest.length
decreasing_by
  have := Cursor.length_lineBreak?_lt _h
  have := c.length_skipWhile_le isSpaceOrTab
  omega

def quotedGap (c : Cursor) : Except Fault (List Char × Cursor) :=
  let (blanks, d) := c.takeWhile isSpaceOrTab
  match d.lineBreak? with
  | none => .ok (blanks, d)
  | some (first, e) => do
    let (breaks, f) ← quotedBreaks e
    return (foldBreaks first breaks, f)

def escapedChar? : Char → Option Char
  | '0' => some '\x00'
  | 'a' => some '\x07'
  | 'b' => some '\x08'
  | 't' => some '\t'
  | '\t' => some '\t'
  | 'n' => some '\n'
  | 'v' => some '\x0b'
  | 'f' => some '\x0c'
  | 'r' => some '\r'
  | 'e' => some '\x1b'
  | ' ' => some ' '
  | '\x22' => some '\x22'
  | '\\' => some '\\'
  | '/' => some '/'
  | 'N' => some '\x85'
  | '_' => some '\xa0'
  | 'L' => some '\u2028'
  | 'P' => some '\u2029'
  | _ => none

def escapeWidth? : Char → Option Nat
  | 'x' => some 2
  | 'u' => some 4
  | 'U' => some 8
  | _ => none

def pointOfCode (code : Nat) : Except Fault CodePoint :=
  if 0x10ffff < code then .error (.escapeTooLarge code) else .ok (.ofNat code)

def quotedEscape (c : Cursor) : Except Fault (Text × Cursor) :=
  match c.rest with
  | [] => .error .malformed
  | ch :: rest =>
    match escapedChar? ch, escapeWidth? ch with
    | some plain, _ => .ok ([.scalar plain], c.next)
    | none, some width => do
      let digits := rest.take width
      match Hex.ofDigits? digits with
      | none => .error .malformed
      | some code =>
        if digits.length < width then .error .malformed
        else
          let point ← pointOfCode code
          return ([point], c.advance (width + 1))
    | none, none =>
      -- A line break behind a backslash is hidden, but not the empty lines after it.
      match c.lineBreak? with
      | none => .error .malformed
      | some (_, d) => do
        let (breaks, e) ← quotedBreaks d
        return (Text.ofChars breaks, e)

def quotedFrom (quoteMark : Char) (c : Cursor) : Except Fault (Text × Cursor) :=
  let double := quoteMark = '\x22'
  let goOn (part : Text × Cursor) : Except Fault (Text × Cursor) :=
    if _h : part.2.rest.length < c.rest.length then do
      let (more, d) ← quotedFrom quoteMark part.2
      return (part.1 ++ more, d)
    else .error .malformed
  match c.rest with
  | [] => .error .malformed
  | ch :: rest =>
    if ch = quoteMark then
      if !double && rest.head? = some quoteMark then goOn ([.scalar ch], c.advance 2)
      else .ok ([], c.next)
    else if double && ch = '\\' then do goOn (← quotedEscape c.next)
    else if isSpaceOrTab ch || isBreak ch then do
      let (gap, d) ← quotedGap c
      goOn (Text.ofChars gap, d)
    else goOn ([.scalar ch], c.next)
termination_by c.rest.length

/-! ## Block scalars -/

/-- What becomes of the line breaks at the end of a block scalar. -/
inductive Chomping where
  | clip
  | strip
  | keep
deriving DecidableEq, Repr

structure BlockHeader where
  chomping : Chomping
  increment : Option Nat

def chomping? : Option Char → Option Chomping
  | some '+' => some .keep
  | some '-' => some .strip
  | _ => none

def increment? (c? : Option Char) : Option Nat :=
  c?.bind fun ch => if ch.isDigit then some (digitValue ch) else none

def blockIndicators (c : Cursor) : BlockHeader × Cursor :=
  match chomping? c.peek with
  | some chomping =>
    match increment? c.next.peek with
    | some n => (⟨chomping, some n⟩, c.advance 2)
    | none => (⟨chomping, none⟩, c.next)
  | none =>
    match increment? c.peek with
    | some n =>
      match chomping? c.next.peek with
      | some chomping => (⟨chomping, some n⟩, c.advance 2)
      | none => (⟨.clip, some n⟩, c.next)
    | none => (⟨.clip, none⟩, c)

def finishLine (c : Cursor) : Except Fault Cursor :=
  let d := c.skipSpaces.skipComment
  match d.lineBreak? with
  | some (_, e) => .ok e
  | none => if d.rest.isEmpty then .ok d else .error .malformed

def blockHeader (c : Cursor) : Except Fault (BlockHeader × Cursor) := do
  let (header, d) := blockIndicators c
  if header.increment = some 0 || !endsWord d.peek then .error .malformed
  else return (header, ← finishLine d)

/-- The empty lines before a block scalar whose header gives no indentation, and the greatest column
that spaces reach there. -/
def leadingLines (c : Cursor) : List Char × Nat × Cursor :=
  match _h : c.skipSpaces.lineBreak? with
  | none => ([], c.skipSpaces.column, c.skipSpaces)
  | some (ch, d) =>
    let (breaks, column, e) := leadingLines d
    (ch :: breaks, max c.skipSpaces.column column, e)
termination_by c.rest.length
decreasing_by
  have := Cursor.length_lineBreak?_lt _h
  have := c.length_skipWhile_le (· = ' ')
  unfold Cursor.skipSpaces at *
  omega

def skipIndent (indent : Nat) (c : Cursor) : Cursor :=
  c.advance (min (indent - c.column) (c.rest.takeWhile (· = ' ')).length)

def emptyLines (indent : Nat) (c : Cursor) : List Char × Cursor :=
  match _h : (skipIndent indent c).lineBreak? with
  | none => ([], skipIndent indent c)
  | some (ch, d) =>
    let (breaks, e) := emptyLines indent d
    (ch :: breaks, e)
termination_by c.rest.length
decreasing_by
  have := Cursor.length_lineBreak?_lt _h
  have := c.length_advance_le (min (indent - c.column) (c.rest.takeWhile (· = ' ')).length)
  unfold skipIndent at *
  omega

/-- The lines of a block scalar with their indentation dropped, up to the end of the last of them;
then the line break that ends it and the empty lines after it. -/
def blockLines (folded : Bool) (indent : Nat) (breaks : List Char) (c : Cursor) :
    List Char × List Char × List Char × Cursor :=
  if c.column = indent && !c.rest.isEmpty then
    let (line, d) := c.takeWhile fun ch => !isBreak ch
    let (lineBreak, e) := match d.lineBreak? with
      | some (ch, e) => ([ch], e)
      | none => ([], d)
    let (breaks', f) := emptyLines indent e
    if f.column = indent && !f.rest.isEmpty then
      if _h : f.rest.length < c.rest.length then
        let startsBlank := fun (g : Cursor) => g.peek.any isSpaceOrTab
        -- Folding turns a lone line feed into a space, and drops it before empty lines.
        let join :=
          if folded && lineBreak = ['\n'] && !startsBlank c && !startsBlank f then
            if breaks'.isEmpty then [' '] else []
          else lineBreak
        let (more, last) := blockLines folded indent breaks' f
        (breaks ++ line ++ join ++ more, last)
      else (breaks ++ line, lineBreak, breaks', f)
    else (breaks ++ line, lineBreak, breaks', f)
  else ([], [], breaks, c)
termination_by c.rest.length

/-- The text of a block scalar, read after its `|` or `>`, and the place after it. Its lines are
indented at least to `minColumn`. -/
def blockScalar (folded : Bool) (minColumn : Nat) (c : Cursor) :
    Except Fault (List Char × Cursor) := do
  let (header, d) ← blockHeader c
  let base := max minColumn 1
  let (breaks, indent, e) := match header.increment with
    | some n =>
      let indent := base + n - 1
      let (breaks, e) := emptyLines indent d
      (breaks, indent, e)
    | none =>
      let (breaks, column, e) := leadingLines d
      (breaks, max base column, e)
  let (text, lineBreak, trailing, f) := blockLines folded indent breaks e
  let ending := match header.chomping with
    | .strip => []
    | .clip => lineBreak
    | .keep => lineBreak ++ trailing
  return (text ++ ending, f)

end LetFun.Yaml
