import LetFun.Tree.Parse
/-!
# Parsing with a cursor

The parser in another form: procedures that share the tokens and a cursor, which is the number of
tokens consumed so far. They look at the token at the cursor, consume it if it has the right type,
and call one another. Nothing in this form says that a run ends: a loop gets a number of rounds, and
so does a block for the blocks inside it, and to need more of them is an outcome of its own.
-/

namespace LetFun.Parse.Cursor

/-- Why a procedure does not return: it refuses the tokens, it asks for a token that does not exist,
or it has no rounds left. -/
inductive Stop where
  | refusal (e : ParseError)
  | noToken
  | outOfRounds

/-- A procedure that looks at the tokens and moves the cursor. -/
abbrev Procedure (α : Type) : Type :=
  ReaderT (List Token) (ExceptT Stop (StateM Nat)) α

variable {α β : Type}

/-! ## Single tokens -/

def atEnd : Procedure Bool := do
  return decide ((← read).length ≤ (← get))

def tokenAt (index : Nat) : Procedure Token := do
  match (← read)[index]? with
  | some t => return t
  | none => throw .noToken

def current : Procedure (Option Token) := do
  if ← atEnd then return none
  else return some (← tokenAt (← get))

def previous : Procedure Token := do
  match ← get with
  | 0 => throw .noToken
  | index + 1 => tokenAt index

def check (type : TokenType) : Procedure Bool := do
  return (← current).any (·.type = type)

def unexpected (expected : List TokenType) : Procedure α := do
  throw (.refusal (.unexpected expected ((← read).drop (← get))))

def expect (type : TokenType) : Procedure Token := do
  match ← current with
  | none => unexpected [type]
  | some t =>
    if t.type = type then
      modify (· + 1)
      return t
    else unexpected [type]

/-! ## Parts of a program -/

def ofExcept : Except ParseError α → Procedure α
  | .ok a => return a
  | .error e => throw (.refusal e)

/-- Calls `body` as long as `test` fails, and lists what it returns. -/
def collect (test : Procedure Bool) (body : Procedure α) : (rounds : Nat) → Procedure (List α)
  | 0 => throw .outOfRounds
  | rounds + 1 => do
    if ← test then return []
    else
      let first ← body
      let later ← collect test body rounds
      return first :: later

def identifier : Procedure Identifier := do
  let t ← expect .identifier
  ofExcept (identifierOf t)

def param : Procedure Identifier := do
  if ← check .identifier then identifier
  else unexpected [.identifier, .rightParen]

def params (rounds : Nat) : Procedure (List Identifier) := do
  let _ ← expect .leftParen
  let is ← collect (check .rightParen) param rounds
  let _ ← expect .rightParen
  return is

def functionName : Procedure (Option Identifier) := do
  if ← check .identifier then return some (← identifier)
  else return none

def functionExpr (rounds : Nat) (block : Procedure Block) : Procedure FunctionExpr := do
  let f ← expect .functionWord
  let name ← functionName
  let is ← params rounds
  let body ← block
  return ⟨⟨f.start, body.span.stop⟩, name, is, body⟩

/-- Reads a declaration. Its declarator ends where the function ends, and the declaration itself
where the token consumed last does. -/
def declaration (rounds : Nat) (block : Procedure Block) : Procedure Declaration := do
  let l ← expect .letWord
  let id ← identifier
  let _ ← expect .assign
  let init ← functionExpr rounds block
  let last ← previous
  match l.value.bind Kind.ofName? with
  | none => throw (.refusal (.invalid ⟨.declaration, [⟨[.field "kind"], .notKind⟩]⟩))
  | some kind =>
    return ⟨⟨l.start, last.stop⟩, kind, [⟨⟨l.start, init.span.stop⟩, id, init⟩]⟩

/-- Reads a statement, where one of the terminators might stand instead. -/
def statement (terminators : List TokenType) (rounds : Nat) (block : Procedure Block) :
    Procedure Declaration := do
  if ← check .letWord then declaration rounds block
  else unexpected (.letWord :: terminators)

def block : (rounds : Nat) → Procedure Block
  | 0 => throw .outOfRounds
  | rounds + 1 => do
    let opening ← expect .leftCurly
    let body ← collect (check .rightCurly) (statement [.rightCurly] rounds (block rounds)) rounds
    let closing ← expect .rightCurly
    return ⟨⟨opening.start, closing.stop⟩, body⟩

def program (rounds : Nat) : Procedure Program := do
  let body ← collect atEnd (statement [] rounds (block rounds)) rounds
  return programOf body

/-! ## Runs -/

def runAt (x : Procedure α) (ts : List Token) (pos : Nat) : Except Stop α × Nat :=
  x ts pos

variable {ts : List Token} {pos : Nat}

theorem runAt_pure (a : α) : runAt (pure a) ts pos = (.ok a, pos) := rfl

/-- Of two procedures in a row, the second starts where the first leaves the cursor. -/
theorem runAt_bind (x : Procedure α) (f : α → Procedure β) :
    runAt (x >>= f) ts pos = match runAt x ts pos with
      | (.ok a, stop) => runAt (f a) ts stop
      | (.error s, stop) => (.error s, stop) := by
  have hbind : runAt (x >>= f) ts pos =
      (ExceptT.bindCont (fun a => f a ts) (runAt x ts pos).1 : StateM Nat (Except Stop β))
        (runAt x ts pos).2 := rfl
  rw [hbind]
  rcases runAt x ts pos with ⟨r, stop⟩
  cases r <;> rfl

theorem runAt_bind_ok {x : Procedure α} {f : α → Procedure β} {a : α} {stop : Nat}
    (h : runAt x ts pos = (.ok a, stop)) : runAt (x >>= f) ts pos = runAt (f a) ts stop := by
  rw [runAt_bind, h]

theorem runAt_bind_error {x : Procedure α} {f : α → Procedure β} {s : Stop} {stop : Nat}
    (h : runAt x ts pos = (.error s, stop)) : runAt (x >>= f) ts pos = (.error s, stop) := by
  rw [runAt_bind, h]

theorem runAt_atEnd : runAt atEnd ts pos = (.ok (decide (ts.length ≤ pos)), pos) := rfl

theorem runAt_read : runAt read ts pos = (.ok ts, pos) := rfl

theorem runAt_tokenAt {t : Token} {index : Nat} (h : ts[index]? = some t) :
    runAt (tokenAt index) ts pos = (.ok t, pos) := by
  unfold tokenAt
  rw [runAt_bind_ok runAt_read, h]
  rfl

/-- A look at the token at the cursor never asks for one that does not exist. -/
theorem runAt_current : runAt current ts pos = (.ok ts[pos]?, pos) := by
  unfold current
  rw [runAt_bind_ok runAt_atEnd]
  by_cases h : ts.length ≤ pos
  · rw [if_pos (decide_eq_true h), List.getElem?_eq_none h]
    rfl
  · obtain ⟨t, hget⟩ : ∃ t, ts[pos]? = some t :=
      ⟨_, List.getElem?_eq_getElem (Nat.lt_of_not_le h)⟩
    rw [if_neg (by simpa using h), hget]
    exact runAt_bind_ok (runAt_tokenAt hget)

/-- Behind a token, that token is the one consumed last. -/
theorem runAt_previous {t : Token} (h : ts[pos]? = some t) :
    runAt previous ts (pos + 1) = (.ok t, pos + 1) :=
  runAt_tokenAt h

theorem runAt_unexpected (expected : List TokenType) :
    runAt (unexpected expected : Procedure α) ts pos =
      (.error (.refusal (.unexpected expected (ts.drop pos))), pos) :=
  rfl

/-- What a reader asks of the rest is what a procedure asks of the token at the cursor. -/
theorem startsWith_drop (type : TokenType) :
    startsWith type (ts.drop pos) = ts[pos]?.any (·.type = type) := by
  rw [← List.head?_drop]
  cases ts.drop pos <;> rfl

theorem runAt_check (type : TokenType) :
    runAt (check type) ts pos = (.ok (startsWith type (ts.drop pos)), pos) := by
  unfold check
  rw [runAt_bind_ok runAt_current, runAt_pure, startsWith_drop]

/-- A token of the right type is consumed. -/
theorem runAt_expect {type : TokenType} {t : Token} (h : ts[pos]? = some t) (ht : t.type = type) :
    runAt (expect type) ts pos = (.ok t, pos + 1) := by
  unfold expect
  rw [runAt_bind_ok runAt_current, h]
  show runAt (if t.type = type then _ else _) ts pos = _
  rw [if_pos ht]
  rfl

/-- An expectation that fails leaves the cursor where it was. -/
theorem runAt_expect_of_not {type : TokenType} (h : startsWith type (ts.drop pos) = false) :
    runAt (expect type) ts pos =
      (.error (.refusal (.unexpected [type] (ts.drop pos))), pos) := by
  unfold expect
  rw [runAt_bind_ok runAt_current]
  rw [startsWith_drop] at h
  cases hget : ts[pos]? with
  | none => exact runAt_unexpected [type]
  | some t =>
    have ht : t.type ≠ type := by simpa [hget] using h
    show runAt (if t.type = type then _ else _) ts pos = _
    rw [if_neg ht]
    exact runAt_unexpected [type]

end LetFun.Parse.Cursor
