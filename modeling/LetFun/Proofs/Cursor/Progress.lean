import LetFun.Proofs.Cursor
/-!
# Progress of the cursor

Every procedure that returns has consumed tokens, and with more rounds than there are tokens left
none of them runs out of rounds (`Part.advances`). More rounds than that change nothing
(`Part.runAt_read_eq`), so a run ends by itself, after at most as many rounds as there are tokens.
-/

namespace LetFun.Parse.Cursor

/-- How a procedure may end that starts with the cursor at `pos`: it has consumed at least `least`
tokens, or it refuses the tokens. The cursor is never moved back or behind the last token, and it
stays in front of a token of a wrong type. -/
inductive Ends {α : Type} (ts : List Token) (pos least : Nat) : Except Stop α × Nat → Prop where
  | returned {a : α} {stop : Nat} (hle : pos + least ≤ stop) (hend : stop ≤ ts.length) :
      Ends ts pos least (.ok a, stop)
  | refused {e : ParseError} {stop : Nat} (hle : pos ≤ stop) (hend : stop ≤ ts.length)
      (hrest : ∀ expected rest, e = .unexpected expected rest → rest = ts.drop stop) :
      Ends ts pos least (.error (.refusal e), stop)

/-- A refusal points to the token at the cursor. -/
theorem Ends.unexpected {α : Type} {ts : List Token} {pos least : Nat} (hend : pos ≤ ts.length)
    (expected : List TokenType) :
    @Ends α ts pos least (.error (.refusal (.unexpected expected (ts.drop pos))), pos) := by
  refine .refused (Nat.le_refl pos) hend fun _ _ h => ?_
  cases h
  rfl

/-- From every cursor that has reached `low`, a procedure consumes at least `least` tokens, or it
refuses them. -/
def Advances {α : Type} (ts : List Token) (low least : Nat) (x : Procedure α) : Prop :=
  ∀ pos, low ≤ pos → pos ≤ ts.length → Ends ts pos least (runAt x ts pos)

variable {α β : Type} {ts : List Token} {low least k l : Nat} {x : Procedure α}

namespace Advances

/-- A procedure that consumes enough consumes less than that, too. -/
theorem mono {low' : Nat} (h : Advances ts low k x) (hlow : low ≤ low') (hl : l ≤ k) :
    Advances ts low' l x := by
  intro pos hpos hend
  have h' := h pos (Nat.le_trans hlow hpos) hend
  generalize runAt x ts pos = r at h' ⊢
  cases h' with
  | returned hle hend => exact .returned (by omega) hend
  | refused hle hend hrest => exact .refused hle hend hrest

theorem pure (a : α) : Advances ts low 0 (pure a) :=
  fun _ _ hend => .returned (Nat.le_refl _) hend

/-- Two procedures in a row consume what each of them does. -/
theorem bind {f : α → Procedure β} (hx : Advances ts low k x)
    (hf : ∀ a, Advances ts (low + k) l (f a)) : Advances ts low (k + l) (x >>= f) := by
  intro pos hpos hend
  rw [runAt_bind]
  have hx' := hx pos hpos hend
  generalize runAt x ts pos = r at hx' ⊢
  cases hx' with
  | refused hle hend hrest => exact .refused hle hend hrest
  | @returned a stop hle hstop =>
    have hf' := hf a stop (by omega) hstop
    show Ends ts pos (k + l) (runAt (f a) ts stop)
    generalize runAt (f a) ts stop = r at hf' ⊢
    cases hf' with
    | returned hle' hend' => exact .returned (by omega) hend'
    | refused hle' hend' hrest => exact .refused (by omega) hend' hrest

theorem ite {c : Prop} [Decidable c] {y : Procedure α} (hx : Advances ts low k x)
    (hy : Advances ts low k y) : Advances ts low k (if c then x else y) := by
  split
  · exact hx
  · exact hy

/-- A look ahead neither moves the cursor nor counts as progress. -/
theorem check (type : TokenType) : Advances ts low 0 (check type) := by
  intro pos _ hend
  rw [runAt_check]
  exact .returned (Nat.le_refl _) hend

theorem unexpected (expected : List TokenType) :
    Advances ts low k (unexpected expected : Procedure α) := by
  intro pos _ hend
  rw [runAt_unexpected]
  exact .unexpected hend expected

theorem invalid (node : InvalidNode) :
    Advances ts low k (throw (.refusal (.invalid node)) : Procedure α) :=
  fun pos _ hend => .refused (Nat.le_refl pos) hend nofun

/-- The token that is asked for is consumed. -/
theorem expect (type : TokenType) : Advances ts low 1 (expect type) := by
  intro pos _ hend
  by_cases h : startsWith type (ts.drop pos) = true
  · rw [startsWith_drop] at h
    obtain ⟨t, ht, htype⟩ := (Option.any_eq_true _ _).1 h
    have hlt : pos < ts.length := (List.getElem?_eq_some_iff.1 ht).1
    rw [runAt_expect ht (by simpa using htype)]
    exact .returned (Nat.le_refl _) hlt
  · rw [runAt_expect_of_not (Bool.eq_false_iff.2 h)]
    exact .unexpected hend [type]

/-- The token consumed last exists as soon as one token has been consumed. -/
theorem previous (hlow : 0 < low) : Advances ts low 0 previous := by
  intro pos hpos hend
  obtain ⟨index, rfl⟩ := Nat.exists_eq_add_one_of_ne_zero (n := pos) (by omega)
  rw [runAt_previous (List.getElem?_eq_getElem hend)]
  exact .returned (Nat.le_refl _) hend

/-- A loop whose body makes progress ends if it has more rounds than there are tokens left. -/
theorem collect {test : Procedure Bool} {body : Procedure α} {rounds : Nat}
    (htest : Advances ts low 0 test) (hbody : Advances ts low 1 body)
    (hrounds : ts.length < low + rounds) : Advances ts low 0 (collect test body rounds) := by
  induction rounds generalizing low with
  | zero =>
    intro pos hpos hend
    omega
  | succ rounds ih =>
    have hlater : Advances ts (low + 1) 0 (Cursor.collect test body rounds) :=
      ih (htest.mono (Nat.le_succ low) (Nat.le_refl 0))
        (hbody.mono (Nat.le_succ low) (Nat.le_refl 1)) (by omega)
    have hround := hbody.bind fun first => hlater.bind fun later => .pure (first :: later)
    exact htest.bind (l := 0) fun done =>
      .ite (.pure []) (hround.mono (Nat.le_refl low) (Nat.zero_le _))

end Advances

/-! ## Parts of a program -/

theorem advances_atEnd : Advances ts low 0 atEnd :=
  fun _ _ hend => .returned (Nat.le_refl _) hend

theorem advances_identifier : Advances ts low 1 identifier := by
  refine (Advances.expect .identifier).bind (l := 0) fun t => ?_
  unfold identifierOf
  split
  · exact .pure _
  · exact .invalid _

theorem advances_param : Advances ts low 1 param :=
  (Advances.check _).bind (l := 1) fun _ => .ite advances_identifier (.unexpected _)

variable {rounds : Nat}

/-- Parameters are read up to a parenthesis, and there are tokens enough for every round. -/
theorem advances_params (hrounds : ts.length < low + rounds) :
    Advances ts low 2 (params rounds) := by
  have hloop : Advances ts (low + 1) 0 (collect (check .rightParen) param rounds) :=
    .collect (.check _) advances_param (by omega)
  show Advances ts low (1 + (0 + (1 + 0))) _
  exact (Advances.expect .leftParen).bind fun _ => hloop.bind fun is =>
    (Advances.expect .rightParen).bind fun _ => .pure is

theorem advances_functionName : Advances ts low 0 functionName := by
  have hname : Advances ts low 1 (identifier >>= fun i => pure (some i)) :=
    advances_identifier.bind fun i => .pure (some i)
  exact (Advances.check _).bind (l := 0) fun found =>
    .ite (hname.mono (Nat.le_refl _) (Nat.zero_le 1)) (.pure none)

/-- A function has five tokens at least, if a block has two. -/
theorem advances_functionExpr {block : Procedure Block} (hrounds : ts.length < low + rounds)
    (hblock : Advances ts (low + 1) 2 block) : Advances ts low 5 (functionExpr rounds block) := by
  show Advances ts low (1 + (0 + (2 + (2 + 0)))) _
  refine (Advances.expect .functionWord).bind fun f => advances_functionName.bind fun name =>
    (advances_params (by omega)).bind fun is => ?_
  exact (hblock.mono (by omega) (Nat.le_refl 2)).bind fun body => .pure _

/-- A declaration has eight tokens at least, if a block has two. -/
theorem advances_declaration {block : Procedure Block} (hrounds : ts.length < low + rounds)
    (hblock : Advances ts (low + 1) 2 block) : Advances ts low 8 (declaration rounds block) := by
  have hinit : Advances ts (low + 1 + 1 + 1) 5 (functionExpr rounds block) :=
    advances_functionExpr (by omega) (hblock.mono (by omega) (Nat.le_refl 2))
  show Advances ts low (1 + (1 + (1 + (5 + (0 + 0))))) _
  refine (Advances.expect .letWord).bind fun l => advances_identifier.bind fun id =>
    (Advances.expect .assign).bind fun _ => hinit.bind fun init =>
      -- the keyword, at least, has been consumed here
      (Advances.previous (by omega)).bind fun last => ?_
  split
  · exact .invalid _
  · exact .pure _

theorem advances_statement {terminators : List TokenType} {block : Procedure Block}
    (hrounds : ts.length < low + rounds) (hblock : Advances ts (low + 1) 2 block) :
    Advances ts low 8 (statement terminators rounds block) := by
  exact (Advances.check _).bind (l := 8) fun found =>
    .ite (advances_declaration hrounds hblock) (.unexpected _)

/-- A block ends if it has more rounds than there are tokens left: the blocks in it have one round
less, and start behind its brace. -/
theorem advances_block (hrounds : ts.length < low + rounds) :
    Advances ts low 2 (block rounds) := by
  induction rounds generalizing low with
  | zero =>
    intro pos hpos hend
    omega
  | succ rounds ih =>
    have hbody : Advances ts (low + 1) 8 (statement [.rightCurly] rounds (block rounds)) :=
      advances_statement (by omega) (ih (by omega))
    have hloop : Advances ts (low + 1) 0
        (collect (check .rightCurly) (statement [.rightCurly] rounds (block rounds)) rounds) :=
      (Advances.check _).collect (hbody.mono (Nat.le_refl _) (by omega)) (by omega)
    show Advances ts low (1 + (0 + (1 + 0))) _
    exact (Advances.expect .leftCurly).bind fun opening => hloop.bind fun body =>
      (Advances.expect .rightCurly).bind fun closing => .pure _

/-- A whole program is read in as many rounds as there are tokens, and one more. -/
theorem advances_program (hrounds : ts.length < low + rounds) :
    Advances ts low 0 (program rounds) := by
  have hbody : Advances ts low 8 (statement [] rounds (block rounds)) :=
    advances_statement hrounds (advances_block (by omega))
  exact (advances_atEnd.collect (hbody.mono (Nat.le_refl _) (by omega)) hrounds).bind (l := 0)
    fun body => .pure (programOf body)

/-! ## More rounds than enough -/

/-- `y` ends as `x` does wherever `x` does not run out of rounds. -/
def Extends (x y : Procedure α) : Prop :=
  ∀ ts pos, (runAt x ts pos).1 ≠ .error .outOfRounds → runAt y ts pos = runAt x ts pos

namespace Extends

theorem refl (x : Procedure α) : Extends x x := fun _ _ _ => rfl

/-- A procedure that runs out of rounds may end in any way with more of them. -/
theorem outOfRounds (y : Procedure α) : Extends (throw .outOfRounds) y :=
  fun _ _ h => absurd rfl h

/-- More rounds for two procedures in a row are more for each. -/
theorem bind {x y : Procedure α} {f g : α → Procedure β} (hx : Extends x y)
    (hf : ∀ a, Extends (f a) (g a)) : Extends (x >>= f) (y >>= g) := by
  intro ts pos h
  have hx' := hx ts pos
  simp only [runAt_bind] at h ⊢
  generalize runAt x ts pos = r at hx' h ⊢
  obtain ⟨outcome, stop⟩ := r
  cases outcome with
  | error s =>
    have hs : s ≠ .outOfRounds := fun hs => h (congrArg Except.error hs)
    rw [hx' fun hs' => hs (Except.error.inj hs')]
  | ok a =>
    rw [hx' nofun]
    exact hf a ts stop h

theorem ite {c : Prop} [Decidable c] {x y x' y' : Procedure α} (hx : Extends x x')
    (hy : Extends y y') : Extends (if c then x else y) (if c then x' else y') := by
  split
  · exact hx
  · exact hy

/-- A loop whose body is extended is extended, also by more rounds. -/
theorem collect {test : Procedure Bool} {x y : Procedure α} (hbody : Extends x y) {n m : Nat}
    (hle : n ≤ m) : Extends (collect test x n) (collect test y m) := by
  induction n generalizing m with
  | zero => exact .outOfRounds _
  | succ n ih =>
    obtain ⟨m, rfl⟩ := Nat.exists_eq_add_one_of_ne_zero (n := m) (by omega)
    exact (Extends.refl test).bind fun done => .ite (.refl _)
      (hbody.bind fun first => (ih (by omega)).bind fun later => .refl _)

end Extends

section Rounds

variable {n m : Nat}

theorem extends_params (hle : n ≤ m) : Extends (params n) (params m) :=
  (Extends.refl _).bind fun _ => ((Extends.refl _).collect hle).bind fun _ => .refl _

theorem extends_functionExpr {x y : Procedure Block} (hblock : Extends x y) (hle : n ≤ m) :
    Extends (functionExpr n x) (functionExpr m y) :=
  (Extends.refl _).bind fun _ => (Extends.refl _).bind fun _ =>
    (extends_params hle).bind fun _ => hblock.bind fun _ => .refl _

theorem extends_declaration {x y : Procedure Block} (hblock : Extends x y) (hle : n ≤ m) :
    Extends (declaration n x) (declaration m y) :=
  (Extends.refl _).bind fun _ => (Extends.refl _).bind fun _ => (Extends.refl _).bind fun _ =>
    (extends_functionExpr hblock hle).bind fun _ => .refl _

theorem extends_statement {terminators : List TokenType} {x y : Procedure Block}
    (hblock : Extends x y) (hle : n ≤ m) :
    Extends (statement terminators n x) (statement terminators m y) := by
  exact (Extends.refl _).bind fun found => .ite (extends_declaration hblock hle) (.refl _)

theorem extends_block (hle : n ≤ m) : Extends (block n) (block m) := by
  induction n generalizing m with
  | zero => exact .outOfRounds _
  | succ n ih =>
    obtain ⟨m, rfl⟩ := Nat.exists_eq_add_one_of_ne_zero (n := m) (by omega)
    have hn : n ≤ m := Nat.le_of_succ_le_succ hle
    exact (Extends.refl _).bind fun _ =>
      ((extends_statement (ih hn) hn).collect hn).bind fun _ => .refl _

end Rounds

/-! ## All parts at once -/

/-- The parts of a program that have a procedure of their own. The loops read parameters, or
statements where one of the terminators might stand instead. -/
inductive Part where
  | token (type : TokenType)
  | identifier
  | param
  | params
  | functionExpr
  | declaration
  | statement (terminators : List TokenType)
  | block

namespace Part

def Value : Part → Type
  | token _ => Token
  | identifier => Identifier
  | param => Identifier
  | params => List Identifier
  | functionExpr => FunctionExpr
  | declaration => Declaration
  | statement _ => Declaration
  | block => Block

def read (rounds : Nat) : (part : Part) → Procedure part.Value
  | token type => Cursor.expect type
  | identifier => Cursor.identifier
  | param => Cursor.param
  | params => Cursor.params rounds
  | functionExpr => Cursor.functionExpr rounds (Cursor.block rounds)
  | declaration => Cursor.declaration rounds (Cursor.block rounds)
  | statement terminators => Cursor.statement terminators rounds (Cursor.block rounds)
  | block => Cursor.block rounds

def leastTokens : Part → Nat
  | token _ => 1
  | identifier => 1
  | param => 1
  | params => 2
  | functionExpr => 5
  | declaration => 8
  | statement _ => 8
  | block => 2

theorem leastTokens_pos (part : Part) : 0 < part.leastTokens := by
  cases part <;> exact Nat.succ_pos _

/-- Every part has a procedure that consumes as many tokens as its shortest spelling has. -/
theorem advances (part : Part) (hrounds : ts.length < low + rounds) :
    Advances ts low part.leastTokens (part.read rounds) := by
  have hblock : Advances ts (low + 1) 2 (Cursor.block rounds) := advances_block (by omega)
  cases part with
  | token type => exact .expect type
  | identifier => exact advances_identifier
  | param => exact advances_param
  | params => exact advances_params hrounds
  | functionExpr => exact advances_functionExpr hrounds hblock
  | declaration => exact advances_declaration hrounds hblock
  | statement terminators => exact advances_statement hrounds hblock
  | block => exact advances_block hrounds

/-- More rounds change nothing where they are enough. -/
theorem extends_read (part : Part) {n m : Nat} (hle : n ≤ m) :
    Extends (part.read n) (part.read m) := by
  have hblock := extends_block hle
  cases part with
  | token type => exact .refl _
  | identifier => exact .refl _
  | param => exact .refl _
  | params => exact extends_params hle
  | functionExpr => exact extends_functionExpr hblock hle
  | declaration => exact extends_declaration hblock hle
  | statement terminators => exact extends_statement hblock hle
  | block => exact hblock

end Part

/-- The cursor stays among the tokens. -/
theorem Ends.stop_le {pos : Nat} {r : Except Stop α × Nat} (h : Ends ts pos least r) :
    r.2 ≤ ts.length := by
  cases h <;> assumption

/-- There are rounds enough. -/
theorem Ends.ne_outOfRounds {pos : Nat} {r : Except Stop α × Nat} (h : Ends ts pos least r) :
    r.1 ≠ .error .outOfRounds := by
  cases h <;> nofun

/-- More rounds than there are tokens left change nothing. -/
theorem Part.runAt_read_eq (part : Part) {pos n m : Nat} (hpos : pos ≤ ts.length)
    (hrounds : ts.length < pos + n) (hle : n ≤ m) :
    runAt (part.read m) ts pos = runAt (part.read n) ts pos :=
  part.extends_read hle ts pos (part.advances hrounds pos (Nat.le_refl pos) hpos).ne_outOfRounds

end LetFun.Parse.Cursor
