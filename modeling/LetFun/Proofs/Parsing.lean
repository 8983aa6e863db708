import LetFun.Proofs.Reader
import LetFun.Proofs.Spelling
/-!
# What the parser accepts

One lemma for each reader in each direction: what it takes off the front of the tokens when it
succeeds, and that it succeeds on such tokens whatever follows. Together they say that the parser
returns a tree exactly if the tokens spell it and there is room for its bodies
(`program_eq_ok_iff`).
-/

namespace LetFun.Parse

variable {ts rest : List Token}

/-! ## Single tokens -/

/-- One token is read, and it has the right type. -/
theorem expect_ok {type : TokenType} {r : Parsed Token Token ts.length}
    (h : expect type ts = .ok r) : ts = r.value :: r.rest ∧ r.value.type = type := by
  cases ts with
  | nil => cases h
  | cons t rest =>
    rw [expect] at h
    split at h
    · next ht =>
      cases h
      exact ⟨rfl, ht⟩
    · cases h

theorem expect_suffix {type : TokenType} {r : Parsed Token Token ts.length}
    (h : expect type ts = .ok r) : r.rest <:+ ts :=
  ⟨[r.value], (expect_ok h).1.symm⟩

theorem expect_cons {type : TokenType} {t : Token} (h : t.type = type) (rest : List Token) :
    Returns (expect type (t :: rest)) t rest := by
  rw [expect, if_pos h]
  exact .ok t rest _

/-- A body is closed by a brace. -/
theorem closing_ok {r : Parsed Token Token ts.length} (h : closing ts = .ok r) :
    ts = r.value :: r.rest ∧ r.value.type = .rightCurly := by
  cases ts with
  | nil => cases h
  | cons t rest =>
    rw [closing] at h
    split at h
    · next ht =>
      cases h
      exact ⟨rfl, ht⟩
    · cases h

theorem closing_cons {t : Token} (h : t.type = .rightCurly) (rest : List Token) :
    Returns (closing (t :: rest)) t rest := by
  rw [closing, if_pos h]
  exact .ok t rest _

theorem startsWith_cons_of_ne {type : TokenType} {t : Token} (h : t.type ≠ type)
    (rest : List Token) : startsWith type (t :: rest) = false :=
  decide_eq_false h

/-! ## Identifiers -/

/-- A token gives the identifier that it spells. -/
theorem identifierOf_eq_ok_iff {t : Token} {i : Identifier} (ht : t.type = .identifier) :
    identifierOf t = .ok i ↔ i.SpelledBy t := by
  rw [Identifier.spelledBy_iff, identifierOf]
  obtain ⟨span, name⟩ := i
  cases hv : t.value with
  | none => simp
  | some v =>
    simp only [Except.ok.injEq, Identifier.mk.injEq, Option.some.injEq]
    exact ⟨fun h => ⟨ht, h.2, h.1.symm⟩, fun h => ⟨h.2.2.symm, h.2.1⟩⟩

theorem identifier_ok {r : Parsed Token Identifier ts.length} (h : identifier ts = .ok r) :
    ∃ t, ts = t :: r.rest ∧ r.value.SpelledBy t := by
  obtain ⟨t, ht, h⟩ := Except.bind_eq_ok_iff.1 h
  obtain ⟨i, hi, h⟩ := Except.bind_eq_ok_iff.1 h
  cases h
  obtain ⟨hts, htype⟩ := expect_ok ht
  exact ⟨t.value, hts, (identifierOf_eq_ok_iff htype).1 hi⟩

theorem identifier_suffix {r : Parsed Token Identifier ts.length} (h : identifier ts = .ok r) :
    r.rest <:+ ts := by
  obtain ⟨t, hts, _⟩ := identifier_ok h
  exact ⟨[t], hts.symm⟩

theorem identifier_cons {t : Token} {i : Identifier} (h : i.SpelledBy t) (rest : List Token) :
    Returns (identifier (t :: rest)) i rest := by
  refine (expect_cons h.type rest).bind fun _ => ?_
  rw [(identifierOf_eq_ok_iff h.type).2 h]
  exact .ok i rest _

/-- A function has a name or none, and what is read spells it. -/
theorem functionName_ok {r : Parsed Token (Option Identifier) (ts.length + 1)}
    (h : functionName ts = .ok r) :
    ∃ names, ts = names ++ r.rest ∧ List.Forall₂ Identifier.SpelledBy r.value.toList names := by
  rw [functionName] at h
  split at h
  · obtain ⟨i, hi, h⟩ := Except.bind_eq_ok_iff.1 h
    cases h
    obtain ⟨t, hts, ht⟩ := identifier_ok hi
    exact ⟨[t], hts, .cons ht .nil⟩
  · cases h
    exact ⟨[], rfl, .nil⟩

theorem functionName_suffix {r : Parsed Token (Option Identifier) (ts.length + 1)}
    (h : functionName ts = .ok r) : r.rest <:+ ts := by
  obtain ⟨names, hts, _⟩ := functionName_ok h
  exact ⟨names, hts.symm⟩

/-- The name of a function is read up to what is no identifier. -/
theorem functionName_append {name : Option Identifier} {names : List Token}
    (h : List.Forall₂ Identifier.SpelledBy name.toList names)
    (hrest : startsWith .identifier rest = false) :
    Returns (functionName (names ++ rest)) name rest := by
  cases name with
  | none =>
    cases h
    rw [List.nil_append, functionName, if_neg (by simp [hrest])]
    exact .ok none rest _
  | some i =>
    obtain ⟨⟩ | ⟨hi, ⟨⟩⟩ := h
    rename_i t
    have hstarts : startsWith .identifier (t :: rest) = true := decide_eq_true hi.type
    rw [List.singleton_append, functionName, if_pos hstarts]
    exact (identifier_cons hi rest).bind_pure fun _ => ⟨rfl, rfl⟩

/-- What is read of parameters spells them, up to the parenthesis. -/
theorem params_ok {r : Parsed Token (List Identifier) ts.length} (h : params ts = .ok r) :
    ∃ ps rp, ts = ps ++ rp :: r.rest ∧ List.Forall₂ Identifier.SpelledBy r.value ps ∧
      rp.type = .rightParen := by
  induction ts with
  | nil => cases h
  | cons t rest ih =>
    rw [params] at h
    split at h
    · next ht =>
      cases h
      exact ⟨[], t, rfl, .nil, ht⟩
    · split at h
      · next ht =>
        obtain ⟨i, hi, h⟩ := Except.bind_eq_ok_iff.1 h
        obtain ⟨later, hlater, h⟩ := Except.bind_eq_ok_iff.1 h
        cases h
        obtain ⟨ps, rp, hts, hps, hrp⟩ := ih hlater
        exact ⟨t :: ps, rp, congrArg (t :: ·) hts,
          .cons ((identifierOf_eq_ok_iff ht).1 hi) hps, hrp⟩
      · cases h

theorem params_suffix {r : Parsed Token (List Identifier) ts.length} (h : params ts = .ok r) :
    r.rest <:+ ts := by
  obtain ⟨ps, rp, hts, _⟩ := params_ok h
  exact ⟨ps ++ [rp], by rw [List.append_assoc, List.singleton_append, ← hts]⟩

/-- Parameters are read back from what spells them. -/
theorem params_append {is : List Identifier} {ps : List Token} {rp : Token}
    (h : List.Forall₂ Identifier.SpelledBy is ps) (hrp : rp.type = .rightParen)
    (rest : List Token) : Returns (params (ps ++ rp :: rest)) is rest := by
  induction h with
  | nil =>
    rw [List.nil_append, params, if_pos hrp]
    exact .ok [] rest _
  | @cons i t is ps hi _ ih =>
    have hne : t.type ≠ .rightParen := by simp [hi.type]
    rw [List.cons_append, params, if_neg hne, if_pos hi.type, (identifierOf_eq_ok_iff hi.type).2 hi]
    exact ih.bind_pure fun _ => ⟨rfl, rfl⟩

/-! ## Openings -/

/-- What is read of an opening spells it. -/
theorem opening_ok {r : Parsed Token Opening ts.length} (h : opening ts = .ok r) :
    ∃ q, ts = q ++ r.rest ∧ r.value.SpelledBy q := by
  obtain ⟨l, hl, h⟩ := Except.bind_eq_ok_iff.1 h
  obtain ⟨id, hid, h⟩ := Except.bind_eq_ok_iff.1 h
  obtain ⟨a, ha, h⟩ := Except.bind_eq_ok_iff.1 h
  obtain ⟨f, hf, h⟩ := Except.bind_eq_ok_iff.1 h
  obtain ⟨name, hname, h⟩ := Except.bind_eq_ok_iff.1 h
  obtain ⟨lp, hlp, h⟩ := Except.bind_eq_ok_iff.1 h
  obtain ⟨ps, hps, h⟩ := Except.bind_eq_ok_iff.1 h
  obtain ⟨b, hb, h⟩ := Except.bind_eq_ok_iff.1 h
  cases h
  obtain ⟨hl, hltype⟩ := expect_ok hl
  obtain ⟨i, hid, hi⟩ := identifier_ok hid
  obtain ⟨ha, hatype⟩ := expect_ok ha
  obtain ⟨hf, hftype⟩ := expect_ok hf
  obtain ⟨names, hname, hnames⟩ := functionName_ok hname
  obtain ⟨hlp, hlptype⟩ := expect_ok hlp
  obtain ⟨params, rp, hps, hparams, hrp⟩ := params_ok hps
  obtain ⟨hb, hbtype⟩ := expect_ok hb
  refine ⟨_, ?_, .intro hltype hi hatype hftype hnames hlptype hparams hrp hbtype⟩
  simp only [List.cons_append, List.append_assoc, List.nil_append]
  rw [← hb, ← hps, ← hlp, ← hname, ← hf, ← ha, ← hid, ← hl]

/-- An opening is read back from what spells it. -/
theorem opening_append {o : Opening} {q : List Token} (h : o.SpelledBy q) (rest : List Token) :
    Returns (opening (q ++ rest)) o rest := by
  obtain ⟨hl, hid, ha, hf, hname, hlp, hparams, hrp, hb⟩ := h
  rename_i l i a f lp rp b names ps id name params
  have hnot : ∀ r, startsWith .identifier (lp :: r) = false := startsWith_cons_of_ne (by simp [hlp])
  have hts : l :: i :: a :: f :: (names ++ lp :: (ps ++ [rp, b])) ++ rest =
      l :: i :: a :: f :: (names ++ lp :: (ps ++ rp :: b :: rest)) := by simp
  rw [hts]
  refine (expect_cons hl _).bind fun _ => (identifier_cons hid _).bind fun _ =>
    (expect_cons ha _).bind fun _ => (expect_cons hf _).bind fun _ =>
    (functionName_append hname (hnot _)).bind fun _ => (expect_cons hlp _).bind fun _ =>
    (params_append hparams hrp _).bind fun _ => (expect_cons hb rest).bind_pure fun _ => ⟨rfl, rfl⟩

theorem Opening.SpelledBy.startsWith {o : Opening} {q : List Token} (h : o.SpelledBy q)
    (rest : List Token) : startsWith .letWord (q ++ rest) = true := by
  cases h with
  | intro hl => exact decide_eq_true hl

/-! ## Room -/

/-- There is room for bodies nested this deep in one another. -/
def Room.Holds : Room → Nat → Prop
  | none, _ => True
  | some limit, depth => depth ≤ limit

/-- There is room for two parts of a program if there is for each. -/
theorem Room.holds_max {room : Room} {m n : Nat} :
    room.Holds (max m n) ↔ room.Holds m ∧ room.Holds n := by
  cases room with
  | none => exact ⟨fun _ => ⟨trivial, trivial⟩, fun _ => trivial⟩
  | some limit => exact Nat.max_le

-- The room inside a body holds what is one deeper outside.
theorem Room.holds_of_enter {room inner : Room} {n : Nat} {rest : List Token}
    (h : room.enter rest = .ok inner) : inner.Holds n ↔ room.Holds (n + 1) := by
  cases room with
  | none =>
    cases h
    exact Iff.rfl
  | some limit =>
    cases limit with
    | zero => cases h
    | succ limit =>
      cases h
      exact Nat.succ_le_succ_iff.symm

theorem Room.exists_enter {room : Room} {n : Nat} (h : room.Holds (n + 1)) (rest : List Token) :
    ∃ inner, room.enter rest = .ok inner := by
  cases room with
  | none => exact ⟨none, rfl⟩
  | some limit =>
    cases limit with
    | zero => exact absurd h (Nat.not_succ_le_zero n)
    | succ limit => exact ⟨some limit, rfl⟩

-- A declaration is one deeper than the body of its function.
theorem depthList_cons_of_close {o : Opening} {body : List Declaration} {brace : Token}
    {d : Declaration} (h : o.close body brace = .ok d) (ds : List Declaration) :
    Declaration.depthList (d :: ds) =
      max (Declaration.depthList body + 1) (Declaration.depthList ds) := by
  obtain ⟨kind, _, rfl⟩ := Opening.close_eq_ok_iff.1 h
  simp only [Declaration.depthList, Declaration.depth, Declarator.depthList, Declarator.depth,
    FunctionExpr.depth, Block.depth, Nat.max_zero]

/-! ## Declarations -/

/-- Reading declarations ends where none starts, and else reads one and goes on behind it. -/
theorem declarations_ok_cases {room : Room} {r : Parsed Token (List Declaration) (ts.length + 1)}
    (h : declarations room ts = .ok r) :
    (startsWith .letWord ts = false ∧ r.value = [] ∧ r.rest = ts) ∨
    (∃ o inner body brace d later, opening ts = .ok o ∧ room.enter o.rest = .ok inner ∧
      declarations inner o.rest = .ok body ∧ closing body.rest = .ok brace ∧
      o.value.close body.value brace.value = .ok d ∧ declarations room brace.rest = .ok later ∧
      r.value = d :: later.value ∧ r.rest = later.rest) := by
  rw [declarations] at h
  split at h
  · obtain ⟨o, ho, h⟩ := Except.bind_eq_ok_iff.1 h
    obtain ⟨inner, hinner, h⟩ := Except.bind_eq_ok_iff.1 h
    obtain ⟨body, hbody, h⟩ := Except.bind_eq_ok_iff.1 h
    obtain ⟨brace, hbrace, h⟩ := Except.bind_eq_ok_iff.1 h
    obtain ⟨d, hd, h⟩ := Except.bind_eq_ok_iff.1 h
    obtain ⟨later, hlater, h⟩ := Except.bind_eq_ok_iff.1 h
    cases h
    exact .inr ⟨o, inner, body, brace, d, later, ho, hinner, hbody, hbrace, hd, hlater, rfl, rfl⟩
  · next hlet =>
    cases h
    exact .inl ⟨by simpa using hlet, rfl, rfl⟩

/-- The parser takes declarations off the front that the tokens taken spell. It stops where no
further declaration starts, and never has more bodies open than there is room for. -/
theorem declarations_ok {room : Room} {ts : List Token}
    {r : Parsed Token (List Declaration) (ts.length + 1)} (h : declarations room ts = .ok r) :
    startsWith .letWord r.rest = false ∧ room.Holds (Declaration.depthList r.value) ∧
      ∃ q, ts = q ++ r.rest ∧ Declaration.AllSpelledBy r.value q := by
  rcases declarations_ok_cases h with ⟨hlet, hvalue, hrest⟩ |
    ⟨o, inner, body, brace, d, later, ho, hinner, hbody, hbrace, hd, hlater, hvalue, hrest⟩
  · rw [hvalue, hrest]
    refine ⟨hlet, ?_, [], rfl, .nil⟩
    cases room <;> simp [Room.Holds, Declaration.depthList]
  · have holt := o.lt_bound
    have hbodylt := body.lt_bound
    have hbracelt := brace.lt_bound
    obtain ⟨_, hdepth, qbody, hqbody, hspelled⟩ := declarations_ok hbody
    obtain ⟨hlet, hdepths, qlater, hqlater, hspelleds⟩ := declarations_ok hlater
    obtain ⟨q, hq, hopening⟩ := opening_ok ho
    obtain ⟨hqbrace, hcurly⟩ := closing_ok hbrace
    rw [hvalue, hrest, depthList_cons_of_close hd, Room.holds_max]
    refine ⟨hlet, ⟨(Room.holds_of_enter hinner).1 hdepth, hdepths⟩, _, ?_,
      allSpelledBy_cons_iff.2
        ⟨_, q, _, qbody, _, qlater, hopening, hspelled, hcurly, hd, hspelleds, rfl⟩⟩
    simp only [List.append_assoc, List.cons_append]
    rw [← hqlater, ← hqbrace, ← hqbody, ← hq]
termination_by ts.length
decreasing_by all_goals omega

-- The parser succeeds on tokens that spell declarations, if there is room for them and no further
-- declaration follows.
theorem declarations_append {ds : List Declaration} {q : List Token}
    (h : Declaration.AllSpelledBy ds q) {room : Room}
    (hroom : room.Holds (Declaration.depthList ds)) (hrest : startsWith .letWord rest = false) :
    Returns (declarations room (q ++ rest)) ds rest := by
  induction h using spelledInduction generalizing room rest with
  | nil =>
    rw [List.nil_append, declarations, if_neg (by simp [hrest])]
    exact .ok [] rest _
  | @cons o q body inner brace d ds later ho _ hbrace hd _ ihbody ihlater =>
    rw [depthList_cons_of_close hd, Room.holds_max] at hroom
    obtain ⟨room', henter⟩ := Room.exists_enter hroom.1 (inner ++ brace :: (later ++ rest))
    have hnot : startsWith .letWord (brace :: (later ++ rest)) = false :=
      startsWith_cons_of_ne (by simp [hbrace]) _
    have hts : q ++ (inner ++ brace :: later) ++ rest =
        q ++ (inner ++ brace :: (later ++ rest)) := by simp
    rw [hts, declarations, if_pos (ho.startsWith _)]
    refine (opening_append ho _).bind fun _ => ?_
    rw [henter]
    refine (ihbody ((Room.holds_of_enter henter).2 hroom.1) hnot).bind fun _ =>
      (closing_cons hbrace _).bind fun _ => ?_
    rw [hd]
    exact (ihlater hroom.2 hrest).bind_pure fun _ => ⟨rfl, rfl⟩

/-! ## Programs -/

theorem getLast?_append_cons (q inner : List Token) (brace : Token) (rest : List Token) :
    (q ++ (inner ++ brace :: rest)).getLast? = some (rest.getLast?.getD brace) := by
  rw [← List.append_assoc, List.getLast?_append, List.getLast?_cons, Option.some_or]

-- Declarations end where their last token ends.
theorem getLast?_stop_of_allSpelledBy {ds : List Declaration} {q : List Token}
    (h : Declaration.AllSpelledBy ds q) :
    ds.getLast?.map (·.span.stop) = q.getLast?.map (·.stop) := by
  induction h using spelledInduction with
  | nil => rfl
  | @cons o q body inner brace d ds rest ho _ _ hd hds _ ih =>
    obtain ⟨kind, _, rfl⟩ := Opening.close_eq_ok_iff.1 hd
    rw [getLast?_append_cons, List.getLast?_cons]
    cases hrest : rest.getLast? <;> cases hlater : ds.getLast? <;>
      simp only [hrest, hlater, Option.map_none, Option.map_some, reduceCtorEq, Option.some.injEq,
        Option.getD_none, Option.getD_some] at ih ⊢
    exact ih

/-- A program is known by its declarations. -/
theorem spelledBy_iff_eq_programOf {p : Program} {ts : List Token} :
    p.SpelledBy ts ↔ Declaration.AllSpelledBy p.body ts ∧ p = programOf p.body := by
  obtain ⟨⟨start, stop⟩, body⟩ := p
  constructor
  · rintro ⟨hbody, hstart, hstop⟩
    refine ⟨hbody, ?_⟩
    rw [programOf, getLast?_stop_of_allSpelledBy hbody, ← hstop]
    cases hstart
    rfl
  · rintro ⟨hbody, hp⟩
    rw [programOf, getLast?_stop_of_allSpelledBy hbody] at hp
    cases hp
    exact ⟨hbody, rfl, rfl⟩

/-- The parser returns a program exactly if the tokens spell it and there is room for it. -/
theorem program_eq_ok_iff {room : Room} {p : Program} :
    program room ts = .ok p ↔ p.SpelledBy ts ∧ room.Holds p.depth := by
  rw [spelledBy_iff_eq_programOf, Program.depth, program]
  constructor
  · intro h
    obtain ⟨ds, hds, h⟩ := Except.bind_eq_ok_iff.1 h
    obtain ⟨_, hdepth, q, hts, hspelled⟩ := declarations_ok hds
    cases hrest : ds.rest with
    | cons t rest =>
      rw [hrest] at h
      cases h
    | nil =>
      rw [hrest] at h
      cases h
      rw [hrest, List.append_nil] at hts
      exact ⟨⟨hts ▸ hspelled, rfl⟩, hdepth⟩
  · rintro ⟨⟨hbody, hp⟩, hdepth⟩
    have hread : Returns (declarations room (ts ++ [])) p.body [] :=
      declarations_append hbody hdepth rfl
    rw [List.append_nil] at hread
    obtain ⟨hlt, hread⟩ := hread
    refine Except.bind_eq_ok_iff.2 ⟨_, hread, ?_⟩
    rw [hp]
    rfl

/-- Tokens spell at most one program. -/
theorem spelledBy_unique {p p' : Program} (h : p.SpelledBy ts) (h' : p'.SpelledBy ts) :
    p = p' := by
  have hp : program none ts = .ok p := program_eq_ok_iff.2 ⟨h, trivial⟩
  have hp' : program none ts = .ok p' := program_eq_ok_iff.2 ⟨h', trivial⟩
  rw [hp] at hp'
  exact Except.ok.inj hp'

end LetFun.Parse
