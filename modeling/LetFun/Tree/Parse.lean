import LetFun.CallStack
import LetFun.Parsed
import LetFun.Token
import LetFun.Tree.Fault
/-!
# Parsing tokens

    program     = declaration*
    declaration = let identifier assign function identifier? ( identifier* ) { declaration* }

A declaration is read as an opening, up to the brace that starts the function's body, then the
declarations of the body, then the closing brace. Every reader takes tokens from the front of a
list and stops at the first token that does not fit. Bodies may be nested in one another as far as
the call stack goes, or without a limit.
-/

namespace LetFun

/-- Why tokens are not a program: a token of another type than those `expected` where `rest` starts,
one body too many where `rest` starts, or a token whose value does not fit. -/
inductive ParseError where
  | unexpected (expected : List TokenType) (rest : List Token)
  | tooDeep (rest : List Token)
  | invalid (node : InvalidNode)
deriving DecidableEq, Repr

namespace ParseError

def actual (rest : List Token) : Option TokenType :=
  rest.head?.map (·.type)

def position (rest : List Token) : Option Int :=
  rest.head?.map (·.start)

def location (rest : List Token) : String :=
  match position rest with
  | some offset => s!"Offset {offset}"
  | none => "End of input"

def message : ParseError → String
  | .unexpected expected rest =>
    let wanted := ", ".intercalate (expected.map (·.name))
    let found := ((actual rest).map (·.name)).getD "end of input"
    s!"{location rest}: Expected {wanted}, got {found}"
  | .tooDeep rest => s!"{location rest}: Nesting too deep"
  | .invalid node => s!"Invalid {node.wanted.name}"

end ParseError

namespace Parse

def expect (type : TokenType) :
    (ts : List Token) → Except ParseError (Parsed Token Token ts.length)
  | [] => .error (.unexpected [type] [])
  | t :: rest =>
    if t.type = type then .ok ⟨t, rest, Nat.lt_succ_self _⟩
    else .error (.unexpected [type] (t :: rest))

def identifierOf (t : Token) : Except ParseError Identifier :=
  match t.value with
  | some name => .ok ⟨⟨t.start, t.stop⟩, name⟩
  | none => .error (.invalid ⟨.identifier, [⟨[.field "name"], .notText⟩]⟩)

def identifier (ts : List Token) : Except ParseError (Parsed Token Identifier ts.length) := do
  let t ← expect .identifier ts
  let i ← identifierOf t.value
  return t.map fun _ => i

def startsWith (type : TokenType) : List Token → Bool
  | [] => false
  | t :: _ => t.type = type

def functionName (ts : List Token) :
    Except ParseError (Parsed Token (Option Identifier) (ts.length + 1)) :=
  if startsWith .identifier ts then do
    let i ← identifier ts
    return (i.map some).widen (Nat.le_succ _)
  else
    .ok ⟨none, ts, Nat.lt_succ_self _⟩

def params : (ts : List Token) → Except ParseError (Parsed Token (List Identifier) ts.length)
  | [] => .error (.unexpected [.identifier, .rightParen] [])
  | t :: rest =>
    if t.type = .rightParen then
      .ok ⟨[], rest, Nat.lt_succ_self _⟩
    else if t.type = .identifier then do
      let i ← identifierOf t
      let later ← params rest
      return (later.map (i :: ·)).widen (Nat.le_succ _)
    else
      .error (.unexpected [.identifier, .rightParen] (t :: rest))

/-- A declaration up to the brace that opens the body of its function. -/
structure Opening where
  letToken : Token
  id : Identifier
  functionToken : Token
  name : Option Identifier
  params : List Identifier
  brace : Token

def opening (ts : List Token) : Except ParseError (Parsed Token Opening ts.length) := do
  let l ← expect .letWord ts
  let id ← identifier l.rest
  let a ← expect .assign id.rest
  let f ← expect .functionWord a.rest
  let name ← functionName f.rest
  let p ← expect .leftParen name.rest
  let ps ← params p.rest
  let b ← expect .leftCurly ps.rest
  return ⟨⟨l.value, id.value, f.value, name.value, ps.value, b.value⟩, b.rest, by
    have := l.lt_bound
    have := id.lt_bound
    have := a.lt_bound
    have := f.lt_bound
    have := name.lt_bound
    have := p.lt_bound
    have := ps.lt_bound
    have := b.lt_bound
    omega⟩

/-- Reads the brace that closes a body, where another declaration might start instead. -/
def closing : (ts : List Token) → Except ParseError (Parsed Token Token ts.length)
  | [] => .error (.unexpected [.letWord, .rightCurly] [])
  | t :: rest =>
    if t.type = .rightCurly then .ok ⟨t, rest, Nat.lt_succ_self _⟩
    else .error (.unexpected [.letWord, .rightCurly] (t :: rest))

/-- The declaration made of an opening, a body and a closing brace; the value of its first token
has to be a kind. -/
def Opening.close (o : Opening) (body : List Declaration) (brace : Token) :
    Except ParseError Declaration :=
  match o.letToken.value.bind Kind.ofName? with
  | none => .error (.invalid ⟨.declaration, [⟨[.field "kind"], .notKind⟩]⟩)
  | some kind =>
    let block : Block := ⟨⟨o.brace.start, brace.stop⟩, body⟩
    let init : FunctionExpr := ⟨⟨o.functionToken.start, brace.stop⟩, o.name, o.params, block⟩
    let span : Span := ⟨o.letToken.start, brace.stop⟩
    .ok ⟨span, kind, [⟨span, o.id, init⟩]⟩

/-- How many more bodies may be open at once; `none` stands for any number. -/
abbrev Room := Option Nat

def Room.enter (room : Room) (rest : List Token) : Except ParseError Room :=
  match room with
  | none => .ok none
  | some 0 => .error (.tooDeep rest)
  | some (n + 1) => .ok (some n)

def declarations (room : Room) (ts : List Token) :
    Except ParseError (Parsed Token (List Declaration) (ts.length + 1)) :=
  if startsWith .letWord ts then do
    let o ← opening ts
    let inner ← room.enter o.rest
    let body ← declarations inner o.rest
    let brace ← closing body.rest
    -- The kind is looked at when the whole declaration has been read.
    let d ← o.value.close body.value brace.value
    let later ← declarations room brace.rest
    return ⟨d :: later.value, later.rest, by
      have := o.lt_bound
      have := body.lt_bound
      have := brace.lt_bound
      have := later.lt_bound
      omega⟩
  else
    .ok ⟨[], ts, Nat.lt_succ_self _⟩
termination_by ts.length
decreasing_by
  · exact o.lt_bound
  · have := o.lt_bound
    have := body.lt_bound
    have := brace.lt_bound
    omega

/-- The program made of declarations: it starts at offset 0 and ends with the last of them. -/
def programOf (body : List Declaration) : Program :=
  ⟨⟨0, (body.getLast?.map (·.span.stop)).getD 0⟩, body⟩

def program (room : Room) (ts : List Token) : Except ParseError Program := do
  let ds ← declarations room ts
  match ds.rest with
  | [] => return programOf ds.value
  | t :: rest => .error (.unexpected [.letWord] (t :: rest))

end Parse

def parse [CallStack] (tokens : List Token) : Except ParseError Program :=
  Parse.program (some CallStack.bodies) tokens

/-- The program that a token list spells, however deeply its bodies are nested. -/
def parseUnbounded (tokens : List Token) : Except ParseError Program :=
  Parse.program none tokens

end LetFun
