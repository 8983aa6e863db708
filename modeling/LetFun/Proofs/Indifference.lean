import LetFun.Proofs.Acceptance
import LetFun.Proofs.Location
import LetFun.Proofs.Moved
/-!
# What the parser does not look at

The parser compares the types of tokens and the values that it checks, and copies names and a few
offsets into the tree. Tokens that agree in this have the same outcome (`SameOutcome`), and offsets
and names that are replaced all at once are replaced in the tree (`parse_indifferent`).
-/

namespace LetFun

open Grammar

/-! ## Outcomes on two lists of tokens -/

/-- Errors on two lists of tokens that are the same, but that each is about its own list: the place
of the error has the same index in both. -/
inductive SameError (ts us : List Token) : ParseError → ParseError → Prop where
  | unexpected (expected : List TokenType) (i : Nat) (hi : i ≤ ts.length)
      (hactual : ParseError.actual (ts.drop i) = ParseError.actual (us.drop i)) :
      SameError ts us (.unexpected expected (ts.drop i)) (.unexpected expected (us.drop i))
  | tooDeep (i : Nat) : SameError ts us (.tooDeep (ts.drop i)) (.tooDeep (us.drop i))
  | invalid (node : InvalidNode) : SameError ts us (.invalid node) (.invalid node)

inductive SameOutcome {α : Type} (ts us : List Token) :
    Except ParseError α → Except ParseError α → Prop where
  | ok (a : α) : SameOutcome ts us (.ok a) (.ok a)
  | error {e e' : ParseError} (h : SameError ts us e e') : SameOutcome ts us (.error e) (.error e')

-- In longer lists the error lies one index further on.
theorem SameOutcome.cons {α : Type} {ts us : List Token} {x y : Except ParseError α}
    (h : SameOutcome ts us x y) (t u : Token) : SameOutcome (t :: ts) (u :: us) x y := by
  cases h with
  | ok a => exact .ok a
  | error h =>
    cases h with
    | unexpected expected i hi hactual =>
      exact .error (.unexpected expected (i + 1) (Nat.succ_le_succ hi) hactual)
    | tooDeep i => exact .error (.tooDeep (i + 1))
    | invalid node => exact .error (.invalid node)

theorem SameOutcome.exists_error {α : Type} {ts us : List Token} {e : ParseError}
    {y : Except ParseError α} (h : SameOutcome ts us (.error e) y) :
    ∃ e', y = .error e' ∧ SameError ts us e e' := by
  cases h with
  | error h => exact ⟨_, rfl, h⟩

theorem SameOutcome.eq_ok {α : Type} {ts us : List Token} {a : α} {y : Except ParseError α}
    (h : SameOutcome ts us (.ok a) y) : y = .ok a := by
  cases h
  rfl

-- An index within a list is told by what is left from it on.
theorem SameError.eq_unexpected {ts us : List Token} {expected : List TokenType} {i : Nat}
    {e : ParseError} (hi : i ≤ ts.length)
    (h : SameError ts us (.unexpected expected (ts.drop i)) e) :
    e = .unexpected expected (us.drop i) := by
  generalize hrest : ts.drop i = rest at h
  cases h with
  | unexpected expected j hj hactual =>
    have hlength := congrArg List.length hrest
    rw [List.length_drop, List.length_drop] at hlength
    rw [show i = j by omega]

/-! ## Values that are not checked -/

structure Token.SameChecked (t u : Token) : Prop where
  type : t.type = u.type
  value : t.type = .letWord ∨ t.type = .identifier → t.value = u.value

theorem Token.SameChecked.symm {t u : Token} (h : t.SameChecked u) : u.SameChecked t :=
  ⟨h.type.symm, fun hchecked => (h.value (h.type ▸ hchecked)).symm⟩

namespace Parse

variable {room : Room} {ts us : List Token}

/-- Results and errors that point to no token are the same on all lists. -/
theorem SameOutcome.refl {α : Type} {ts us : List Token} {x : Except ParseError α}
    (hunexpected : ∀ expected rest, x ≠ .error (.unexpected expected rest))
    (hdeep : ∀ rest, x ≠ .error (.tooDeep rest)) : SameOutcome ts us x x := by
  cases x with
  | ok a => exact .ok a
  | error e =>
    cases e with
    | unexpected expected rest => exact absurd rfl (hunexpected expected rest)
    | tooDeep rest => exact absurd rfl (hdeep rest)
    | invalid node => exact .error (.invalid node)

/-- What is checked of a token depends only on its type and its checked value. -/
theorem accept_sameChecked {t u : Token} (h : t.SameChecked u) (room : Room) (n : Nat)
    (lets : List (Option String)) (ts us : List Token) :
    SameOutcome (t :: ts) (u :: us) (accept room n lets t ts) (accept room n lets u us) := by
  by_cases hcurly : t.type = .leftCurly
  · simp only [accept, ← h.type, hcurly]
    cases room with
    | none => exact .ok lets
    | some limit =>
      dsimp only
      split
      · exact .ok lets
      · exact .error (.tooDeep 1)
  -- Only the room for a body has an error that points to the token, so the others are the same.
  · have hsame : accept room n lets t ts = accept room n lets u us := by
      by_cases hlet : t.type = .letWord
      · simp only [accept, hlet, ← h.type, h.value (.inl hlet)]
      by_cases hidentifier : t.type = .identifier
      · simp only [accept, hidentifier, ← h.type, identifierOf, h.value (.inr hidentifier)]
        cases u.value <;> rfl
      · unfold accept
        rw [← h.type]
        split <;> first | contradiction | rfl
    rw [← hsame]
    exact SameOutcome.refl (fun _ _ => accept_ne_unexpected) fun _ => accept_ne_tooDeep hcurly

/-- Tokens that agree in what is checked get the same verdict. -/
theorem verdictFrom_sameOutcome (h : List.Forall₂ Token.SameChecked ts us) (room : Room) (s : State)
    (lets : List (Option String)) :
    SameOutcome ts us (verdictFrom room s lets ts) (verdictFrom room s lets us) := by
  induction h generalizing s lets with
  | nil =>
    rw [verdictFrom]
    split
    · exact .ok ()
    · exact .error (.unexpected s.wanted 0 (Nat.le_refl 0) rfl)
  | @cons t u ts us htu _ ih =>
    cases hstep : s.step t.type with
    | none =>
      rw [verdictFrom_stuck hstep, verdictFrom_stuck (htu.type ▸ hstep)]
      exact .error (.unexpected s.wanted 0 (Nat.zero_le _) (congrArg some htu.type))
    | some s' =>
      rw [verdictFrom_cons rfl hstep, verdictFrom_cons htu.type.symm hstep]
      have haccept := accept_sameChecked htu room s.opened lets ts us
      generalize accept room s.opened lets t ts = x at haccept
      generalize accept room s.opened lets u us = y at haccept
      cases haccept with
      | ok lets => exact (ih s' lets).cons t u
      | error h => exact .error h

/-- Tokens that are checked alike are refused alike, at the same index. -/
theorem exists_program_sameError (h : List.Forall₂ Token.SameChecked ts us) {e : ParseError}
    (hts : program room ts = .error e) :
    ∃ e', program room us = .error e' ∧ SameError ts us e e' := by
  have hverdict := verdictFrom_sameOutcome h room .start []
  rw [← verdict, ← verdict, program_eq_error_iff.1 hts] at hverdict
  obtain ⟨e', hus, he'⟩ := hverdict.exists_error
  exact ⟨e', program_eq_error_iff.2 hus, he'⟩

end Parse

/-! ## What is copied into the tree -/

/-- Tokens that agree in what is checked of them, in the starts of those with which a part of a tree
may start, and in the ends of those with which one may end. -/
structure Token.SameRead (t u : Token) : Prop extends t.SameChecked u where
  start : t.type ∈ [.letWord, .functionWord, .leftCurly, .identifier] → t.start = u.start
  stop : t.type ∈ [.rightCurly, .identifier] → t.stop = u.stop

/-- A token with nothing left of it but what is read. -/
def Token.stripped (t : Token) : Token where
  type := t.type
  value := if t.type = .letWord ∨ t.type = .identifier then t.value else none
  start := if t.type ∈ [.letWord, .functionWord, .leftCurly, .identifier] then t.start else 0
  stop := if t.type ∈ [.rightCurly, .identifier] then t.stop else 0

theorem Token.sameRead_stripped (t : Token) : t.SameRead t.stripped where
  type := rfl
  value h := (if_pos h).symm
  start h := (if_pos h).symm
  stop h := (if_pos h).symm

theorem Identifier.SpelledBy.sameRead {i : Identifier} {t u : Token} (hi : i.SpelledBy t)
    (h : t.SameRead u) : i.SpelledBy u := by
  obtain ⟨htype, hvalue, hspan⟩ := Identifier.spelledBy_iff.1 hi
  refine Identifier.spelledBy_iff.2 ⟨h.type ▸ htype, ?_, ?_⟩
  · rw [← h.value (.inr htype), hvalue]
  · rw [hspan, h.start (by simp [htype]), h.stop (by simp [htype])]

theorem Identifier.forall₂_sameRead {is : List Identifier} {ts us : List Token}
    (his : List.Forall₂ Identifier.SpelledBy is ts) (h : List.Forall₂ Token.SameRead ts us) :
    List.Forall₂ Identifier.SpelledBy is us := by
  induction his generalizing us with
  | nil =>
    cases h
    exact .nil
  | cons hi _ ih =>
    obtain ⟨⟩ | ⟨hu, h⟩ := h
    exact .cons (hi.sameRead hu) (ih h)

theorem exists_append_of_forall₂ {α β : Type} {R : α → β → Prop} {front back : List α}
    {bs : List β} (h : List.Forall₂ R (front ++ back) bs) :
    ∃ front' back', List.Forall₂ R front front' ∧ List.Forall₂ R back back' ∧
      bs = front' ++ back' := by
  refine ⟨bs.take front.length, bs.drop front.length, ?_, ?_, (List.take_append_drop _ _).symm⟩
  · simpa using List.forall₂_take front.length h
  · simpa using List.forall₂_drop front.length h

-- An opening makes the same declarations from the same bodies.
theorem Parse.Opening.SpelledBy.exists_sameRead {o : Opening} {q q' : List Token}
    (ho : o.SpelledBy q) (h : List.Forall₂ Token.SameRead q q') :
    ∃ o' : Opening, o'.SpelledBy q' ∧ ∀ body brace brace', brace.type = .rightCurly →
      brace.SameRead brace' → o'.close body brace' = o.close body brace := by
  obtain ⟨hl, hid, ha, hf, hname, hlp, hparams, hrp, hb⟩ := ho
  obtain ⟨⟩ | ⟨hl', h⟩ := h
  obtain ⟨⟩ | ⟨hi', h⟩ := h
  obtain ⟨⟩ | ⟨ha', h⟩ := h
  obtain ⟨⟩ | ⟨hf', h⟩ := h
  obtain ⟨_, _, hnames', hafter, rfl⟩ := exists_append_of_forall₂ h
  obtain ⟨⟩ | ⟨hlp', hafter⟩ := hafter
  obtain ⟨_, _, hps', hend, rfl⟩ := exists_append_of_forall₂ hafter
  obtain ⟨⟩ | ⟨hrp', hend⟩ := hend
  obtain ⟨⟩ | ⟨hb', ⟨⟩⟩ := hend
  refine ⟨_, .intro (hl'.type ▸ hl) (hid.sameRead hi') (ha'.type ▸ ha) (hf'.type ▸ hf)
    (Identifier.forall₂_sameRead hname hnames') (hlp'.type ▸ hlp)
    (Identifier.forall₂_sameRead hparams hps') (hrp'.type ▸ hrp) (hb'.type ▸ hb), ?_⟩
  intro body brace brace' hbrace hbrace'
  simp only [close, ← hl'.value (.inl hl), ← hl'.start (by simp [hl]),
    ← hf'.start (by simp [hf]), ← hb'.start (by simp [hb]), ← hbrace'.stop (by simp [hbrace])]

/-- Declarations are spelled by all tokens from which the same is read. -/
theorem Declaration.AllSpelledBy.sameRead {ds : List Declaration} {ts us : List Token}
    (hds : Declaration.AllSpelledBy ds ts) (h : List.Forall₂ Token.SameRead ts us) :
    Declaration.AllSpelledBy ds us := by
  induction hds using Parse.spelledInduction generalizing us with
  | nil =>
    cases h
    exact .nil
  | cons ho _ hbrace hd _ ihbody ihrest =>
    obtain ⟨_, _, hq, hafter, rfl⟩ := exists_append_of_forall₂ h
    obtain ⟨_, _, hinner, hend, rfl⟩ := exists_append_of_forall₂ hafter
    obtain ⟨⟩ | ⟨hbrace', hrest⟩ := hend
    obtain ⟨o', ho', hclose⟩ := ho.exists_sameRead hq
    exact Parse.allSpelledBy_cons_iff.2 ⟨o', _, _, _, _, _, ho', ihbody hinner,
      hbrace'.type ▸ hbrace, (hclose _ _ _ hbrace hbrace').trans hd, ihrest hrest, rfl⟩

theorem Program.SpelledBy.sameRead {p : Program} {ts us : List Token} (hp : p.SpelledBy ts)
    (h : List.Forall₂ Token.SameRead ts us) : p.SpelledBy us := by
  obtain ⟨hbody, hprogram⟩ := Parse.spelledBy_iff_eq_programOf.1 hp
  exact Parse.spelledBy_iff_eq_programOf.2 ⟨hbody.sameRead h, hprogram⟩

/-- Tokens that agree in what is read of them have the same outcome. -/
theorem Parse.program_sameOutcome {room : Room} {ts us : List Token}
    (h : List.Forall₂ Token.SameRead ts us) :
    SameOutcome ts us (program room ts) (program room us) := by
  cases hts : program room ts with
  | ok p =>
    obtain ⟨hp, hroom⟩ := program_eq_ok_iff.1 hts
    rw [program_eq_ok_iff.2 ⟨hp.sameRead h, hroom⟩]
    exact .ok p
  | error e =>
    obtain ⟨e', hus, he'⟩ := exists_program_sameError (h.imp fun _ _ h => h.toSameChecked) hts
    rw [hus]
    exact .error he'

/-! ## Replaced offsets and names -/

/-- A program with every offset and every name in its declarations replaced. It starts at 0 as
before, and without declarations it ends there. -/
def Program.map (g : Int → Int) (h : String → String) (p : Program) : Program :=
  ⟨⟨p.span.start, if p.body.isEmpty then p.span.stop else g p.span.stop⟩,
    p.body.map (Declaration.map g h)⟩

theorem Parse.programOf_map (g : Int → Int) (h : String → String) (body : List Declaration) :
    programOf (body.map (Declaration.map g h)) = (programOf body).map g h := by
  rcases List.eq_nil_or_concat body with rfl | ⟨front, d, rfl⟩
  · rfl
  · cases d
    simp [programOf, Program.map, Declaration.map, Span.map]

/-- Where tokens are moved and renamed, so is the program. -/
theorem Parse.program_map {room : Room} {ts : List Token} {p : Program} (g : Int → Int)
    (h : String → String) (hp : program room ts = .ok p) :
    program room (ts.map (Token.map g h)) = .ok (p.map g h) := by
  obtain ⟨hspelled, hroom⟩ := program_eq_ok_iff.1 hp
  obtain ⟨hbody, hprogram⟩ := spelledBy_iff_eq_programOf.1 hspelled
  have hbody' := hbody.map (g := g) (h := h)
  have hdepth := Declaration.depthList_map g h p.body
  rw [Declaration.mapList_eq] at hbody' hdepth
  rw [hprogram, ← programOf_map]
  refine program_eq_ok_iff.2 ⟨spelledBy_iff_eq_programOf.2 ⟨hbody', rfl⟩, ?_⟩
  rw [Program.depth, programOf, hdepth]
  exact hroom

/-- The parser does not look at offsets, nor at most values. Tokens that agree in their types, in
the values of `let` and of identifiers and in the offsets that are copied into the tree make the
same program, or the same error at the same index; and where offsets and names are replaced in the
tokens of a program, they are replaced in its tree. -/
theorem parse_indifferent [CallStack] (ts : List Token) :
    (∀ us, List.Forall₂ Token.SameRead ts us → SameOutcome ts us (parse ts) (parse us)) ∧
      ∀ g h p, parse ts = .ok p → parse (ts.map (Token.map g h)) = .ok (p.map g h) :=
  ⟨fun _ => Parse.program_sameOutcome, fun g h _ => Parse.program_map g h⟩

/-- Stripped of what is not read, `nestedTokens` make the same tree, and with other offsets and
names the image of the tree; `misplacedTokens` are wrong at the same index as before. -/
theorem nestedTokens_indifferent :
    (List.Forall₂ Token.SameRead nestedTokens (nestedTokens.map Token.stripped) ∧
      parse nestedTokens = .ok nestedProgram ∧
      parse (nestedTokens.map Token.stripped) = .ok nestedProgram ∧
      parse (nestedTokens.map (Token.map (0 - ·) (· ++ "s"))) =
        .ok (nestedProgram.map (0 - ·) (· ++ "s"))) ∧
    (List.Forall₂ Token.SameRead misplacedTokens (misplacedTokens.map Token.stripped) ∧
      parse misplacedTokens =
        .error (.unexpected [.identifier, .rightParen] (misplacedTokens.drop 6)) ∧
      parse (misplacedTokens.map Token.stripped) =
        .error (.unexpected [.identifier, .rightParen]
          ((misplacedTokens.map Token.stripped).drop 6))) := by
  have hstripped : ∀ ts : List Token, List.Forall₂ Token.SameRead ts (ts.map Token.stripped) :=
    fun ts => List.forall₂_map_right_iff.2 (List.forall₂_same.2 fun t _ => t.sameRead_stripped)
  have hnested : parse nestedTokens = .ok nestedProgram := by decide +kernel
  have hmisplaced : parse misplacedTokens =
      .error (.unexpected [.identifier, .rightParen] (misplacedTokens.drop 6)) := by decide +kernel
  have hsame := (parse_indifferent nestedTokens).1 _ (hstripped _)
  have hwrong := (parse_indifferent misplacedTokens).1 _ (hstripped _)
  rw [hnested] at hsame
  rw [hmisplaced] at hwrong
  obtain ⟨e, he, hwrong⟩ := hwrong.exists_error
  refine ⟨⟨hstripped _, hnested, hsame.eq_ok, (parse_indifferent nestedTokens).2 _ _ _ hnested⟩,
    hstripped _, hmisplaced, ?_⟩
  rw [he, hwrong.eq_unexpected (by decide)]

end LetFun
