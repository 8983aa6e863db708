import LetFun.Proofs.Cursor.Progress
import LetFun.Proofs.Acceptance
/-!
# Cursor and list agree

The procedures that move a cursor do what the readers do that take tokens from the front of a list:
the list that a reader goes on with holds the tokens behind the cursor (`Matches`). So the procedure
for a whole program, with more rounds than there are tokens, is the parser without a limit
(`runAt_program`), and what holds of the cursor holds of the parser (`progress_and_termination`).
-/

namespace LetFun.Parse.Cursor

/-- A procedure and a reader end in the same way: they return the same value, and the cursor stands
where the rest of the list begins, or they refuse the tokens for the same reason. -/
inductive Matches {α : Type} {b : Nat} (ts : List Token) :
    Except Stop α × Nat → Except ParseError (Parsed Token α b) → Prop where
  | returned {a : α} {stop : Nat} {rest : List Token} {hb : rest.length < b}
      (hrest : ts.drop stop = rest) : Matches ts (.ok a, stop) (.ok ⟨a, rest, hb⟩)
  | refused (e : ParseError) (stop : Nat) : Matches ts (.error (.refusal e), stop) (.error e)

variable {α β : Type} {ts : List Token} {pos b c : Nat}

/-- Procedures and readers that match are followed by others that match. -/
theorem Matches.bind {x : Procedure α} {r : Except ParseError (Parsed Token α b)}
    {f : α → Procedure β} {g : Parsed Token α b → Except ParseError (Parsed Token β c)}
    (hx : Matches ts (runAt x ts pos) r)
    (hf : ∀ a stop hb, Matches ts (runAt (f a) ts stop) (g ⟨a, ts.drop stop, hb⟩)) :
    Matches ts (runAt (x >>= f) ts pos) (r >>= g) := by
  rw [runAt_bind]
  generalize runAt x ts pos = outcome at hx ⊢
  cases hx with
  | refused e stop => exact .refused e stop
  | @returned a stop rest hb hrest =>
    subst hrest
    exact hf a stop hb

/-! ## Single tokens -/

/-- The rest of the tokens begins with the one at the cursor. -/
theorem drop_of_getElem? {t : Token} (h : ts[pos]? = some t) :
    ts.drop pos = t :: ts.drop (pos + 1) := by
  obtain ⟨hlt, rfl⟩ := List.getElem?_eq_some_iff.1 h
  exact List.drop_eq_getElem_cons hlt

theorem getElem?_of_drop {t : Token} {rest : List Token} (h : ts.drop pos = t :: rest) :
    ts[pos]? = some t ∧ ts.drop (pos + 1) = rest := by
  have hget : ts[pos]? = some t := by rw [← List.head?_drop, h]; rfl
  exact ⟨hget, List.cons.inj ((drop_of_getElem? hget).symm.trans h) |>.2⟩

/-- Consuming one token of a type is reading one. -/
theorem matches_expect (type : TokenType) :
    Matches ts (runAt (expect type) ts pos) (Parse.expect type (ts.drop pos)) := by
  generalize hts : ts.drop pos = rest
  cases rest with
  | nil =>
    rw [runAt_expect_of_not (by rw [hts]; rfl), hts]
    exact .refused _ pos
  | cons t rest =>
    obtain ⟨hget, hrest⟩ := getElem?_of_drop hts
    rw [Parse.expect]
    split
    · next ht =>
      rw [runAt_expect hget ht]
      exact .returned hrest
    · next ht =>
      rw [runAt_expect_of_not (by rw [hts]; exact decide_eq_false ht), hts]
      exact .refused _ pos

theorem matches_identifier :
    Matches ts (runAt identifier ts pos) (Parse.identifier (ts.drop pos)) := by
  refine (matches_expect _).bind fun t stop hb => ?_
  cases hi : identifierOf t with
  | error e => exact .refused e stop
  | ok i => exact .returned rfl

theorem matches_functionName :
    Matches ts (runAt functionName ts pos) (Parse.functionName (ts.drop pos)) := by
  unfold functionName Parse.functionName
  rw [runAt_bind_ok (runAt_check _)]
  split
  · exact matches_identifier.bind fun i stop hb => .returned rfl
  · exact .returned rfl

/-! ## Parameters -/

/-- A parameter is an identifier. -/
theorem runAt_param {t : Token} (h : ts[pos]? = some t) (ht : t.type = .identifier) :
    runAt param ts pos = runAt (ofExcept (identifierOf t)) ts (pos + 1) := by
  unfold param identifier
  have hfound : startsWith .identifier (ts.drop pos) = true := by
    rw [drop_of_getElem? h]
    exact decide_eq_true ht
  rw [runAt_bind_ok (runAt_check _), if_pos hfound, runAt_bind_ok (runAt_expect h ht)]

/-- Where no parameter starts, the parenthesis might have come as well. -/
theorem runAt_param_of_not (h : startsWith .identifier (ts.drop pos) = false) :
    runAt param ts pos =
      (.error (.refusal (.unexpected [.identifier, .rightParen] (ts.drop pos))), pos) := by
  unfold param
  rw [runAt_bind_ok (runAt_check _), if_neg (by simp [h])]
  exact runAt_unexpected _

/-- The loop over parameters and the parenthesis behind them, by induction on the rounds: each
parameter uses up one round and one token. -/
theorem matches_parameters {rounds : Nat} (h : (ts.drop pos).length < rounds) :
    Matches ts (runAt (collect (check .rightParen) param rounds >>= fun is =>
        expect .rightParen >>= fun _ => pure is) ts pos) (Parse.params (ts.drop pos)) := by
  induction rounds generalizing pos with
  | zero => exact absurd h (Nat.not_lt_zero _)
  | succ rounds ih =>
    rw [collect, bind_assoc, runAt_bind_ok (runAt_check _)]
    -- Without a token the loop goes on, and the parameter that it asks for is missing.
    rcases hts : ts.drop pos with _ | ⟨t, rest⟩
    · have hnot : startsWith .identifier (ts.drop pos) = false := by rw [hts]; rfl
      rw [if_neg (by decide), bind_assoc, runAt_bind_error (runAt_param_of_not hnot), hts]
      exact .refused _ pos
    obtain ⟨hget, rfl⟩ := getElem?_of_drop hts
    rw [Parse.params]
    by_cases hend : t.type = .rightParen
    · have hfound : startsWith .rightParen (t :: ts.drop (pos + 1)) = true := decide_eq_true hend
      rw [if_pos hfound, if_pos hend, pure_bind, runAt_bind_ok (runAt_expect hget hend)]
      exact .returned rfl
    rw [if_neg (by simpa [startsWith] using hend), if_neg hend, bind_assoc]
    split
    · next ht =>
      have hparam := runAt_param hget ht
      cases hi : identifierOf t with
      | error e =>
        rw [hi] at hparam
        rw [runAt_bind_error hparam]
        exact .refused e (pos + 1)
      | ok i =>
        rw [hi] at hparam
        rw [runAt_bind_ok hparam]
        have hlength : (ts.drop (pos + 1)).length < rounds := by
          rw [hts] at h
          exact Nat.lt_of_succ_lt_succ h
        have hcons := (ih hlength).bind (f := fun is => pure (i :: is)) (g := fun p =>
          .ok ((p.map (i :: ·)).widen (Nat.le_succ _))) fun is stop hb => .returned rfl
        simp only [bind_assoc, pure_bind] at hcons ⊢
        exact hcons
    · next ht =>
      rw [runAt_bind_error (runAt_param_of_not (by rw [hts]; exact decide_eq_false ht)), hts]
      exact .refused _ pos

/-! ## Declarations -/

def readDeclaration (ts : List Token) :
    Except ParseError (Parsed Token Declaration ts.length) := do
  let o ← opening ts
  let body ← declarations none o.rest
  let brace ← closing body.rest
  let d ← o.value.close body.value brace.value
  return ⟨d, brace.rest, by
    have := o.lt_bound
    have := body.lt_bound
    have := brace.lt_bound
    omega⟩

theorem declarations_none (ts : List Token) :
    declarations none ts =
      if startsWith .letWord ts then do
        let d ← readDeclaration ts
        let later ← declarations none d.rest
        return (later.map (d.value :: ·)).widen (Nat.succ_le_succ (Nat.le_of_lt d.lt_bound))
      else
        .ok ⟨[], ts, Nat.lt_succ_self _⟩ := by
  rw [declarations]
  simp only [readDeclaration, Room.enter, bind_assoc, pure_bind]
  rfl

/-- What follows the declarations that a list starts with: the end of them, or a token that neither
starts a declaration nor ends them. -/
def ended (terminators : List TokenType) (stop : List Token → Bool)
    (p : Parsed Token (List Declaration) b) :
    Except ParseError (Parsed Token (List Declaration) b) :=
  if stop p.rest then .ok p else .error (.unexpected (.letWord :: terminators) p.rest)

/-- What follows declarations does not depend on what is made of them. -/
theorem ended_map {terminators : List TokenType} {stop : List Token → Bool}
    (f : List Declaration → List Declaration) (hle : b ≤ c)
    (p : Parsed Token (List Declaration) b) :
    (ended terminators stop p >>= fun p => pure ((p.map f).widen hle)) =
      ended terminators stop ((p.map f).widen hle) := by
  unfold ended
  rw [Parsed.widen_rest, Parsed.map_rest]
  split <;> rfl

/-- A statement is a declaration. -/
theorem runAt_statement {terminators : List TokenType} {rounds : Nat} {block : Procedure Block}
    (h : startsWith .letWord (ts.drop pos) = true) :
    runAt (statement terminators rounds block) ts pos =
      runAt (declaration rounds block) ts pos := by
  unfold statement
  rw [runAt_bind_ok (runAt_check _), if_pos h]

/-- Where no statement starts, a terminator might have come as well. -/
theorem runAt_statement_of_not {terminators : List TokenType} {rounds : Nat}
    {block : Procedure Block} (h : ¬startsWith .letWord (ts.drop pos) = true) :
    runAt (statement terminators rounds block) ts pos =
      (.error (.refusal (.unexpected (.letWord :: terminators) (ts.drop pos))), pos) := by
  unfold statement
  rw [runAt_bind_ok (runAt_check _), if_neg h]
  exact runAt_unexpected _

/-- A loop over statements, by induction on the rounds: each statement uses up one round and at
least one token. -/
theorem matches_statements {terminators : List TokenType} {test : Procedure Bool}
    {stop : List Token → Bool} {n rounds : Nat} {block : Procedure Block}
    (htest : ∀ pos, runAt test ts pos = (.ok (stop (ts.drop pos)), pos))
    (hstop : ∀ rest, startsWith .letWord rest = true → stop rest = false)
    (hdecl : ∀ pos', (ts.drop pos').length ≤ (ts.drop pos).length →
      Matches ts (runAt (declaration n block) ts pos') (readDeclaration (ts.drop pos')))
    (h : (ts.drop pos).length < rounds) :
    Matches ts (runAt (collect test (statement terminators n block) rounds) ts pos)
      (declarations none (ts.drop pos) >>= ended terminators stop) := by
  induction rounds generalizing pos with
  | zero => exact absurd h (Nat.not_lt_zero _)
  | succ rounds ih =>
    -- The loop asks whether the terminator comes, the reader whether a declaration does.
    rw [collect, runAt_bind_ok (htest pos), declarations_none]
    by_cases hlet : startsWith .letWord (ts.drop pos) = true
    · rw [if_pos hlet, if_neg (by simp [hstop _ hlet]), runAt_bind, runAt_statement hlet,
        ← runAt_bind, bind_assoc]
      refine (hdecl pos (Nat.le_refl _)).bind fun d s (hb : (ts.drop s).length < _) => ?_
      have hlater : Matches ts (runAt (collect test (statement terminators n block) rounds) ts s)
          (declarations none (ts.drop s) >>= ended terminators stop) :=
        ih (fun pos' hpos' => hdecl pos' (by omega)) (by omega)
      have hcons := hlater.bind (f := fun later => pure (d :: later))
        (g := fun p => pure ((p.map (d :: ·)).widen (Nat.succ_le_succ (Nat.le_of_lt hb))))
        fun later stop hb => .returned rfl
      simp only [bind_assoc, ended_map, pure_bind] at hcons ⊢
      exact hcons
    · rw [if_neg hlet]
      -- Here both end, or the loop refuses what the reader leaves to its caller.
      show Matches ts _ (ended terminators stop ⟨[], ts.drop pos, _⟩)
      unfold ended
      split
      · exact .returned rfl
      · rw [runAt_bind_error (runAt_statement_of_not hlet)]
        exact .refused _ pos

/-- A loop over statements leaves the cursor where the reader of declarations sees their end. -/
theorem Matches.bind_ended {terminators : List TokenType} {stop : List Token → Bool}
    {x : Procedure (List Declaration)}
    {r : Except ParseError (Parsed Token (List Declaration) b)} {f : List Declaration → Procedure β}
    {g : Parsed Token (List Declaration) b → Except ParseError (Parsed Token β c)}
    (hx : Matches ts (runAt x ts pos) (r >>= ended terminators stop))
    (hf : ∀ body s hb, stop (ts.drop s) = true →
      Matches ts (runAt (f body) ts s) (g ⟨body, ts.drop s, hb⟩))
    (hg : ∀ p, stop p.rest = false → g p = .error (.unexpected (.letWord :: terminators) p.rest)) :
    Matches ts (runAt (x >>= f) ts pos) (r >>= g) := by
  rw [runAt_bind]
  cases r with
  | error e =>
    generalize runAt x ts pos = outcome at hx ⊢
    cases hx
    exact .refused e _
  | ok p =>
    change Matches ts _ (ended terminators stop p) at hx
    show Matches ts _ (g p)
    generalize runAt x ts pos = outcome at hx ⊢
    -- The reader goes on where the terminator stands and is refused elsewhere; so has the loop
    -- been.
    cases hp : stop p.rest with
    | true =>
      rw [ended, if_pos hp] at hx
      cases hx with
      | @returned a s rest hb hrest =>
        subst hrest
        exact hf a s hb hp
    | false =>
      rw [ended, if_neg (by simp [hp])] at hx
      rw [hg p hp]
      cases hx
      exact .refused _ _

theorem not_startsWith_rightCurly (rest : List Token) (h : startsWith .letWord rest = true) :
    startsWith .rightCurly rest = false := by
  cases rest with
  | nil => rfl
  | cons t rest =>
    have ht : t.type = .letWord := by simpa [startsWith] using h
    exact startsWith_cons_of_ne (by simp [ht]) rest

/-- A closing brace at the cursor is read. -/
theorem closing_drop {t : Token} (h : ts[pos]? = some t) (ht : t.type = .rightCurly) :
    Returns (closing (ts.drop pos)) t (ts.drop (pos + 1)) := by
  rw [drop_of_getElem? h]
  exact closing_cons ht _

/-- Where no closing brace stands, a declaration might have come as well. -/
theorem closing_of_not {rest : List Token} (h : startsWith .rightCurly rest = false) :
    closing rest = .error (.unexpected [.letWord, .rightCurly] rest) := by
  cases rest with
  | nil => rfl
  | cons t rest => rw [closing, if_neg (by simpa [startsWith] using h)]

/-- A block is an opening brace, the declarations behind it and a closing brace, which is the token
consumed last when the block has been read. -/
theorem Matches.bind_block {n : Nat} {f : Block → Procedure β}
    {g : (opening : Parsed Token Token (ts.drop pos).length) →
      (body : Parsed Token (List Declaration) (opening.rest.length + 1)) →
      Parsed Token Token body.rest.length → Except ParseError (Parsed Token β c)}
    (hdecl : ∀ p, (ts.drop p).length < n →
      Matches ts (runAt (declaration n (block n)) ts p) (readDeclaration (ts.drop p)))
    (hn : (ts.drop pos).length ≤ n)
    (hf : ∀ opening p hp body s hs brace hb, ts[s]? = some brace →
      Matches ts (runAt (f ⟨⟨opening.start, brace.stop⟩, body⟩) ts (s + 1))
        (g ⟨opening, ts.drop p, hp⟩ ⟨body, ts.drop s, hs⟩ ⟨brace, ts.drop (s + 1), hb⟩)) :
    Matches ts (runAt (block (n + 1) >>= f) ts pos) (Parse.expect .leftCurly (ts.drop pos) >>=
      fun opening => declarations none opening.rest >>= fun body =>
        closing body.rest >>= fun brace => g opening body brace) := by
  rw [block, bind_assoc]
  refine (matches_expect _).bind fun opening p (hp : (ts.drop p).length < _) => ?_
  rw [bind_assoc]
  have hloop : Matches ts (runAt (collect (check .rightCurly)
      (statement [.rightCurly] n (block n)) n) ts p)
      (declarations none (ts.drop p) >>= ended [.rightCurly] (startsWith .rightCurly)) :=
    matches_statements (fun _ => runAt_check _) not_startsWith_rightCurly
      (fun p' hp' => hdecl p' (by omega)) (by omega)
  refine hloop.bind_ended (fun body s hs hend => ?_) fun body hend => ?_
  · rw [startsWith_drop] at hend
    obtain ⟨brace, hget, hbrace⟩ := (Option.any_eq_true _ _).1 hend
    have htype : brace.type = .rightCurly := by simpa using hbrace
    obtain ⟨hb, hclosing⟩ := closing_drop hget htype
    rw [hclosing, bind_assoc, runAt_bind_ok (runAt_expect hget htype), pure_bind]
    exact hf opening p hp body s hs brace hb hget
  · show closing body.rest >>= _ = _
    rw [closing_of_not hend]
    rfl

/-- A declaration, by induction on the rounds: the declarations in its block have one round less. -/
theorem matches_declaration {n : Nat} (h : (ts.drop pos).length < n) :
    Matches ts (runAt (declaration n (block n)) ts pos) (readDeclaration (ts.drop pos)) := by
  induction n generalizing pos with
  | zero => exact absurd h (Nat.not_lt_zero _)
  | succ n ih =>
    unfold readDeclaration opening
    simp only [bind_assoc, pure_bind]
    -- Each step of the reader consumes at least one token, which leaves rounds enough for the body.
    refine (matches_expect _).bind fun l p₁ (h₁ : (ts.drop p₁).length < (ts.drop pos).length) => ?_
    refine matches_identifier.bind fun id p₂ (h₂ : (ts.drop p₂).length < (ts.drop p₁).length) => ?_
    refine (matches_expect _).bind fun _ p₃ (h₃ : (ts.drop p₃).length < (ts.drop p₂).length) => ?_
    rw [functionExpr, bind_assoc]
    refine (matches_expect _).bind fun f p₄ (h₄ : (ts.drop p₄).length < (ts.drop p₃).length) => ?_
    rw [bind_assoc]
    refine matches_functionName.bind
      fun name p₅ (h₅ : (ts.drop p₅).length < (ts.drop p₄).length + 1) => ?_
    rw [bind_assoc, params, bind_assoc]
    refine (matches_expect _).bind fun _ p₆ (h₆ : (ts.drop p₆).length < (ts.drop p₅).length) => ?_
    refine (matches_parameters (by omega)).bind
      fun is p₇ (h₇ : (ts.drop p₇).length < (ts.drop p₆).length) => ?_
    rw [bind_assoc]
    refine Matches.bind_block (fun _ => ih) (by omega) fun opening p _ body s _ brace _ hget => ?_
    -- The token consumed last is the brace, where the declaration ends.
    rw [pure_bind, runAt_bind_ok (runAt_previous hget)]
    show Matches ts _ (Opening.close _ body brace >>= _)
    unfold Opening.close
    cases l.value.bind Kind.ofName? with
    | none => exact .refused _ _
    | some kind => exact .returned rfl

/-! ## Programs -/

theorem runAt_atEnd_isEmpty : runAt atEnd ts pos = (.ok (ts.drop pos).isEmpty, pos) := by
  have hiff : ts.length ≤ pos ↔ (ts.drop pos).isEmpty := by
    rw [List.isEmpty_iff, List.drop_eq_nil_iff]
  rw [runAt_atEnd, Bool.eq_iff_iff.2 (decide_eq_true_iff.trans hiff)]

/-- With more rounds than there are tokens, the procedure for a whole program is the parser, and it
returns only behind the last token. -/
theorem runAt_program {n : Nat} (h : ts.length < n) :
    ∃ stop, runAt (program n) ts 0 = ((parseUnbounded ts).mapError .refusal, stop) ∧
      ∀ p, parseUnbounded ts = .ok p → ts.length ≤ stop := by
  have hloop : Matches ts (runAt (collect atEnd (statement [] n (block n)) n) ts 0)
      (declarations none ts >>= ended [] List.isEmpty) :=
    matches_statements (fun _ => runAt_atEnd_isEmpty)
      (fun rest hlet => by cases rest with | nil => cases hlet | cons => rfl)
      (fun p (hp : (ts.drop p).length ≤ ts.length) => matches_declaration (by omega)) h
  generalize hrun : runAt (collect atEnd (statement [] n (block n)) n) ts 0 = outcome at hloop
  unfold parseUnbounded Parse.program
  -- The reader stops before a token that starts no declaration, where the loop is refused.
  cases hds : declarations none ts with
  | error e =>
    rw [hds] at hloop
    cases hloop
    exact ⟨_, runAt_bind_error hrun, nofun⟩
  | ok ds =>
    rw [hds] at hloop
    obtain ⟨body, rest, hb⟩ := ds
    cases rest with
    | nil =>
      cases hloop with
      | returned hrest => exact ⟨_, runAt_bind_ok hrun, fun _ _ => List.drop_eq_nil_iff.1 hrest⟩
    | cons t rest =>
      cases hloop
      exact ⟨_, runAt_bind_error hrun, nofun⟩

/-- The parser moves its cursor forward, within the tokens, and its recursion ends by itself. To
look ahead, or to expect a token that is not there, leaves the cursor where it is, and the token
consumed last is asked for only when there is one. Every part of a program, a parameter or statement
that a loop reads included, consumes its tokens or is refused, and never needs more rounds than
there are tokens left. The whole run is that of the parser without a limit; if it returns, it has
consumed all tokens. -/
theorem progress_and_termination (ts : List Token) :
    (∀ (type : TokenType) (pos : Nat),
      runAt atEnd ts pos = (.ok (decide (ts.length ≤ pos)), pos) ∧
      runAt current ts pos = (.ok ts[pos]?, pos) ∧
      runAt (check type) ts pos = (.ok (startsWith type (ts.drop pos)), pos) ∧
      (startsWith type (ts.drop pos) = false →
        runAt (expect type) ts pos =
          (.error (.refusal (.unexpected [type] (ts.drop pos))), pos))) ∧
    runAt previous ts 0 = (.error .noToken, 0) ∧
    (∀ pos t, ts[pos]? = some t → runAt previous ts (pos + 1) = (.ok t, pos + 1)) ∧
    (∀ (part : Part) (pos n : Nat), pos ≤ ts.length → ts.length < pos + n →
      0 < part.leastTokens ∧
      Ends ts pos part.leastTokens (runAt (part.read n) ts pos) ∧
      ∀ m, n ≤ m → runAt (part.read m) ts pos = runAt (part.read n) ts pos) ∧
    ∀ n, ts.length < n →
      Ends ts 0 0 (runAt (program n) ts 0) ∧
      ∃ stop, runAt (program n) ts 0 = ((parseUnbounded ts).mapError .refusal, stop) ∧
        ∀ p, parseUnbounded ts = .ok p → stop = ts.length := by
  refine ⟨fun type pos => ⟨runAt_atEnd, runAt_current, runAt_check type, runAt_expect_of_not⟩, rfl,
    fun pos t => runAt_previous, fun part pos n hpos hrounds => ⟨part.leastTokens_pos,
      part.advances hrounds pos (Nat.le_refl pos) hpos,
      fun m => part.runAt_read_eq hpos hrounds⟩, fun n hrounds => ?_⟩
  have hends : Ends ts 0 0 (runAt (program n) ts 0) :=
    advances_program (by omega) 0 (Nat.le_refl 0) (Nat.zero_le _)
  -- The run is that of the reader, which says where it ends; that it does not go further is
  -- `hends`.
  obtain ⟨stop, hrun, hlast⟩ := runAt_program hrounds
  have hstop : (runAt (program n) ts 0).2 ≤ ts.length := hends.stop_le
  rw [hrun] at hstop
  exact ⟨hends, stop, hrun, fun p hp => Nat.le_antisymm hstop (hlast p hp)⟩

/-- A run over nested declarations, and one over the same tokens cut behind the brace that opens the
outer body. -/
theorem nestedTokens_progress_and_termination :
    runAt (expect .letWord) nestedTokens 8 =
      (.error (.refusal (.unexpected [.letWord] (nestedTokens.drop 8))), 8) ∧
    runAt previous nestedTokens 9 = (.ok ⟨.leftCurly, none, 6, 4⟩, 9) ∧
    Ends nestedTokens 8 2 (runAt (block 11) nestedTokens 8) ∧
    runAt (block 40) nestedTokens 8 = runAt (block 11) nestedTokens 8 ∧
    runAt (program 19) nestedTokens 0 = (.ok nestedProgram, 18) ∧
    runAt (program 10) (nestedTokens.take 9) 0 =
      (.error (.refusal (.unexpected [.letWord, .rightCurly] [])), 9) := by
  obtain ⟨hlook, _, hprevious, hparts, hprogram⟩ := progress_and_termination nestedTokens
  obtain ⟨_, hends, hmore⟩ := hparts .block 8 11 (by decide) (by decide)
  refine ⟨(hlook .letWord 8).2.2.2 (by decide), hprevious 8 _ rfl, hends, hmore 40 (by decide),
    ?_, ?_⟩
  · have hparse : parseUnbounded nestedTokens = .ok nestedProgram := by decide +kernel
    obtain ⟨_, stop, hrun, hstop⟩ := hprogram 19 (by decide)
    rw [hrun, hstop _ hparse, hparse]
    rfl
  · have hparse : parseUnbounded (nestedTokens.take 9) =
        .error (.unexpected [.letWord, .rightCurly] []) := by decide +kernel
    obtain ⟨hends, stop, hrun, _⟩ :=
      (progress_and_termination (nestedTokens.take 9)).2.2.2.2 10 (by decide)
    rw [hrun, hparse] at hends ⊢
    cases hends with
    | refused _ hend hrest =>
      have hdrop := List.drop_eq_nil_iff.1 (hrest _ _ rfl).symm
      rw [Nat.le_antisymm hend hdrop]
      rfl

end LetFun.Parse.Cursor
