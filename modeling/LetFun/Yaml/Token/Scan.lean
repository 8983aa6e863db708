import LetFun.Yaml.NameText
/-!
# Tokens of YAML text

Outside brackets, indentation opens and closes block collections: `columns` are the columns of the
open ones. A node on one line may turn out to be a key when a colon follows it; `candidates`
remember where such a node started, one for each level of brackets, and the key token is inserted
there. Tokens from the first candidate on are not settled: they are handed out when it is known
whether it is a key.
-/

namespace LetFun.Yaml

/-- A node that may turn out to be a key: how many tokens come before it, where it starts, and
whether it has to be a key because it stands where only entries of the mapping can. -/
structure Candidate where
  index : Nat
  required : Bool
  offset : Nat
  line : Nat
  column : Nat

/-- A place in a text with what the text before it tells. -/
structure Scan where
  cursor : Cursor
  tokens : Array Token
  flowLevel : Nat
  columns : List Nat
  keyAllowed : Bool
  candidates : List (Nat × Candidate)

namespace Scan

def start (text : List Char) : Scan :=
  let c := Cursor.start text
  ⟨if c.peek = some '\ufeff' then c.next else c, #[], 0, [], true, []⟩

def inFlow (s : Scan) : Bool :=
  0 < s.flowLevel

def push (s : Scan) (t : Token) : Scan :=
  { s with tokens := s.tokens.push t }

/-- The least column of the content of the innermost block collection. -/
def minColumn (s : Scan) : Nat :=
  match s.columns with
  | [] => 0
  | column :: _ => column + 1

def skipBlanks (s : Scan) : Scan :=
  match _h : s.cursor.skipSpaces.skipComment.lineBreak? with
  | none => { s with cursor := s.cursor.skipSpaces.skipComment }
  | some (_, c) => skipBlanks { s with cursor := c, keyAllowed := s.keyAllowed || !s.inFlow }
termination_by s.cursor.rest.length
decreasing_by
  have hbreak := Cursor.length_lineBreak?_lt _h
  have hspaces : s.cursor.skipSpaces.rest.length ≤ s.cursor.rest.length :=
    s.cursor.length_skipWhile_le _
  have hcomment : s.cursor.skipSpaces.skipComment.rest.length ≤
      s.cursor.skipSpaces.rest.length := by
    unfold Cursor.skipComment
    split
    · exact Cursor.length_skipWhile_le _ _
    · exact Nat.le_refl _
  omega

/-- Without the candidates that can no longer be keys, which are those on other lines and those more
than 1024 characters back. -/
def dropStale (s : Scan) : Except Fault Scan :=
  let stale (k : Candidate) : Bool :=
    k.line ≠ s.cursor.line || k.offset + 1024 < s.cursor.offset
  if s.candidates.any fun (_, k) => stale k && k.required then .error .malformed
  else .ok { s with candidates := s.candidates.filter fun (_, k) => !stale k }

def candidate? (s : Scan) : Option Candidate :=
  s.candidates.lookup s.flowLevel

def dropCandidate (s : Scan) : Except Fault Scan :=
  if s.candidate?.any (·.required) then .error .malformed
  else .ok { s with candidates := s.candidates.filter (·.1 ≠ s.flowLevel) }

/-- With the node that starts here as a candidate, where a key is allowed. -/
def saveCandidate (s : Scan) : Except Fault Scan :=
  if s.keyAllowed then do
    let required := !s.inFlow && s.columns.head? = some s.cursor.column
    let dropped ← s.dropCandidate
    let c := s.cursor
    let k : Candidate := ⟨s.tokens.size, required, c.offset, c.line, c.column⟩
    return { dropped with candidates := (s.flowLevel, k) :: dropped.candidates }
  else .ok s

def closeFrom (s : Scan) (limit : Nat) : Scan :=
  let closed := s.columns.takeWhile (limit ≤ ·)
  { s with
    columns := s.columns.drop closed.length
    tokens := s.tokens ++ (closed.map fun _ => Token.blockEnd).toArray }

def closeIndented (s : Scan) : Scan :=
  if s.inFlow then s else s.closeFrom (s.cursor.column + 1)

/-- With a block collection opened at a column, unless one is open there or further in; its token
goes to position `index`. -/
def openBlock (s : Scan) (column index : Nat) (t : Token) : Scan :=
  if column < s.minColumn then s
  else { s with columns := column :: s.columns, tokens := s.tokens.insertIdxIfInBounds index t }

def take (s : Scan) (n : Nat) (t : Token) : Scan :=
  { s with cursor := s.cursor.advance n, tokens := s.tokens.push t }

def leaveBlocks (s : Scan) : Except Fault Scan := do
  let closed := if s.inFlow then s else s.closeFrom 0
  let dropped ← closed.dropCandidate
  return { dropped with keyAllowed := false }

def marker (s : Scan) (t : Token) : Except Fault Scan := do
  return (← s.leaveBlocks).take 3 t

def directive (s : Scan) : Except Fault Scan := do
  let left ← s.leaveBlocks
  let (d, c) ← directiveText s.cursor.next
  return { left.push (.directive d) with cursor := c }

def openBracket (s : Scan) (t : Token) : Except Fault Scan := do
  let saved ← s.saveCandidate
  return { saved.take 1 t with flowLevel := s.flowLevel + 1, keyAllowed := true }

def closeBracket (s : Scan) (t : Token) : Except Fault Scan := do
  let dropped ← s.dropCandidate
  return { dropped.take 1 t with flowLevel := s.flowLevel - 1, keyAllowed := false }

def flowEntry (s : Scan) : Except Fault Scan := do
  let dropped ← s.dropCandidate
  return { dropped.take 1 .flowEntry with keyAllowed := true }

def blockEntry (s : Scan) : Except Fault Scan := do
  if !s.inFlow && !s.keyAllowed then .error .malformed
  else
    let opened :=
      if s.inFlow then s else s.openBlock s.cursor.column s.tokens.size .blockSequenceStart
    let dropped ← opened.dropCandidate
    return { dropped.take 1 .blockEntry with keyAllowed := true }

def explicitKey (s : Scan) : Except Fault Scan := do
  if !s.inFlow && !s.keyAllowed then .error .malformed
  else
    let opened :=
      if s.inFlow then s else s.openBlock s.cursor.column s.tokens.size .blockMappingStart
    let dropped ← opened.dropCandidate
    return { dropped.take 1 .key with keyAllowed := !s.inFlow }

/-- The colon of a value. It makes the candidate at its level a key. -/
def value (s : Scan) : Except Fault Scan := do
  match s.candidate? with
  | some k =>
    -- The candidate becomes a key after all, and perhaps the first one of a mapping.
    let keyed := { s with
      candidates := s.candidates.filter (·.1 ≠ s.flowLevel)
      tokens := s.tokens.insertIdxIfInBounds k.index .key
      keyAllowed := false }
    let opened := if s.inFlow then keyed else keyed.openBlock k.column k.index .blockMappingStart
    return opened.take 1 .value
  | none =>
    if !s.inFlow && !s.keyAllowed then .error .malformed
    else
      let opened :=
        if s.inFlow then s else s.openBlock s.cursor.column s.tokens.size .blockMappingStart
      let dropped ← opened.dropCandidate
      return { dropped.take 1 .value with keyAllowed := !s.inFlow }

/-- A name or a quoted scalar, which may start a key and may not be followed by another. -/
def named (s : Scan) (read : Cursor → Except Fault (Token × Cursor)) : Except Fault Scan := do
  let saved ← s.saveCandidate
  let (t, c) ← read s.cursor
  return { saved.push t with cursor := c, keyAllowed := false }

def block (s : Scan) (folded : Bool) : Except Fault Scan := do
  let dropped ← s.dropCandidate
  let (text, c) ← blockScalar folded s.minColumn s.cursor.next
  let scalar := Token.scalar (Text.ofChars text) false
  return { dropped.push scalar with cursor := c, keyAllowed := true }

/-- A plain scalar. A key may come after it if a line ends with it. -/
def plain (s : Scan) : Except Fault Scan := do
  let saved ← s.saveCandidate
  let (text, c, lineEnded) := plainFrom s.inFlow s.minColumn [] false s.cursor
  let scalar := Token.scalar (Text.ofChars text) true
  return { saved.push scalar with cursor := c, keyAllowed := lineEnded }

def startsPlain (s : Scan) (ch : Char) (following : Option Char) : Bool :=
  !(endsIndicator (some ch) || "-?:,[]\x7b\x7d#&*!|>\x27\x22%@\x60".contains ch) ||
    !endsIndicator following && (ch = '-' || !s.inFlow && (ch = '?' || ch = ':'))

def token (s : Scan) (ch : Char) : Except Fault Scan :=
  let c := s.cursor
  let following := c.peekAt 1
  let indicates := endsIndicator following
  -- These mean something else unless they start a line.
  if ch = '%' && c.column = 0 then s.directive
  else if ch = '-' && c.column = 0 && c.atMarker then s.marker .documentStart
  else if ch = '.' && c.column = 0 && c.atMarker then s.marker .documentEnd
  else match ch with
  | '[' => s.openBracket .flowSequenceStart
  | '\x7b' => s.openBracket .flowMappingStart
  | ']' => s.closeBracket .flowSequenceEnd
  | '\x7d' => s.closeBracket .flowMappingEnd
  | ',' => s.flowEntry
  | '*' => s.named fun c => do
    let (name, d) ← anchorName c.next
    return (.alias name, d)
  | '&' => s.named fun c => do
    let (name, d) ← anchorName c.next
    return (.anchor name, d)
  | '!' => s.named fun c => do
    let (tag, d) ← tagText c
    return (.tag tag, d)
  | '\x27' => s.named fun c => do
    let (text, d) ← quotedFrom '\x27' c.next
    return (.scalar text false, d)
  | '\x22' => s.named fun c => do
    let (text, d) ← quotedFrom '\x22' c.next
    return (.scalar text false, d)
  | _ =>
    -- The other indicators may also start or go on with a plain scalar.
    if ch = '-' && indicates then s.blockEntry
    else if ch = '?' && (s.inFlow || indicates) then s.explicitKey
    else if ch = ':' && (s.inFlow || indicates) then s.value
    else if ch = '|' && !s.inFlow then s.block false
    else if ch = '>' && !s.inFlow then s.block true
    else if s.startsPlain ch following then s.plain
    else .error .malformed

/-- With what comes next in the text: a token and those that indentation implies before it, or at
the end of the text the ends of all block collections. -/
def next (s : Scan) : Except Fault Scan := do
  let here := closeIndented (← dropStale s.skipBlanks)
  match here.cursor.rest with
  | [] => here.leaveBlocks
  | ch :: _ => do
    let after ← here.token ch
    after.dropStale

/-- The tokens before which no further one can be inserted. -/
def settled (s : Scan) : List Token :=
  match (s.candidates.map (·.2.index)).min? with
  | none => s.tokens.toList
  | some index => s.tokens.toList.take index

/-- All tokens of the text, up to its first fault. -/
def finish (s : Scan) : List Token :=
  match s.next with
  | .error f => s.settled ++ [.fault f]
  | .ok after =>
    -- A step that takes no character was the last one.
    if _h : after.cursor.rest.length < s.cursor.rest.length then after.finish
    else after.tokens.toList
termination_by s.cursor.rest.length

end Scan

def isAllowed (c : Char) : Bool :=
  let n := c.toNat
  n = 9 || n = 10 || n = 13 || 0x20 ≤ n && n ≤ 0x7e || n = 0x85 || 0xa0 ≤ n && n ≤ 0xfffd ||
    0x10000 ≤ n

def tokenize (text : List Char) : List Token :=
  if text.all isAllowed then (Scan.start text).finish else [.fault .malformed]

end LetFun.Yaml
