import LetFun.Proofs.Layout
import LetFun.Proofs.Refusal
import LetFun.Proofs.Verdict
/-!
# What the limit on nesting changes

A run of the parser without a limit has a number of bodies open at each moment, at most the depth of
the tree if it returns one (`reaches_depth`). The limit replaces the outcome of the run by an error
if that number gets beyond it (`exists_program_tooDeep_iff`), and changes nothing otherwise
(`parse_eq_unbounded_or_tooDeep`).
-/

namespace LetFun

namespace Parse

/-- A run without a limit that reads declarations inside `n` open bodies has `m` bodies open at some
moment: right away, in the body of the first declaration, or after that declaration. -/
inductive Reaches : (n : Nat) → List Token → (m : Nat) → Prop where
  | here {n : Nat} {ts : List Token} : Reaches n ts n
  | body {n m : Nat} {ts : List Token} {o : Parsed Token Opening ts.length}
      (hlet : startsWith .letWord ts = true) (ho : opening ts = .ok o)
      (h : Reaches (n + 1) o.rest m) : Reaches n ts m
  | later {n m : Nat} {ts : List Token} {o : Parsed Token Opening ts.length}
      {body : Parsed Token (List Declaration) (o.rest.length + 1)}
      {brace : Parsed Token Token body.rest.length} {d : Declaration}
      (hlet : startsWith .letWord ts = true) (ho : opening ts = .ok o)
      (hbody : declarations none o.rest = .ok body) (hbrace : closing body.rest = .ok brace)
      (hd : o.value.close body.value brace.value = .ok d) (h : Reaches n brace.rest m) :
      Reaches n ts m

variable {ts : List Token}

/-! ## Errors of a single token -/

theorem close_ne_tooDeep {o : Opening} {body : List Declaration} {brace : Token}
    {stop : List Token} : o.close body brace ≠ .error (.tooDeep stop) := by
  intro h
  unfold Opening.close at h
  split at h <;> cases h

/-- A token that does not fit is no matter of depth. -/
theorem Misfit.ne_tooDeep {stop : List Token} : ¬ Misfit ts (.tooDeep stop) := by
  intro h
  cases h

/-! ## Runs beyond the limit -/

/-- Without room, the first opening is one body too many. -/
theorem declarations_full {o : Parsed Token Opening ts.length}
    (hlet : startsWith .letWord ts = true) (ho : opening ts = .ok o) :
    declarations (some 0) ts = .error (.tooDeep o.rest) := by
  rw [declarations, if_pos hlet, ho]
  rfl

/-- What is too deep in a body is too deep with the declaration around it. -/
theorem declarations_of_body_tooDeep {room : Nat} {o : Parsed Token Opening ts.length}
    {stop : List Token} (hlet : startsWith .letWord ts = true) (ho : opening ts = .ok o)
    (hbody : declarations (some room) o.rest = .error (.tooDeep stop)) :
    declarations (some (room + 1)) ts = .error (.tooDeep stop) := by
  rw [declarations, if_pos hlet, ho]
  show (declarations (some room) o.rest >>= _) = _
  rw [hbody]
  rfl

/-- A run that has more bodies open at some moment than there is room for is cut off. -/
theorem Reaches.tooDeep {n m room : Nat} (h : Reaches n ts m) (hm : n + room < m) :
    ∃ stop, declarations (some room) ts = .error (.tooDeep stop) := by
  induction h generalizing room with
  | here => omega
  | @body n m ts o hlet ho _ ih =>
    cases room with
    | zero => exact ⟨_, declarations_full hlet ho⟩
    | succ room =>
      have hlt : n + 1 + room < m := by omega
      obtain ⟨stop, hbody⟩ := ih hlt
      exact ⟨stop, declarations_of_body_tooDeep hlet ho hbody⟩
  | @later n m ts o body brace d hlet ho hbody hbrace hd _ ih =>
    cases room with
    | zero => exact ⟨_, declarations_full hlet ho⟩
    | succ room =>
      -- The body of the first declaration may be too deep already.
      rcases declarations_eq_or_tooDeep (some room) o.rest with hsame | ⟨stop, hdeep⟩
      · obtain ⟨stop, hlater⟩ := ih hm
        refine ⟨stop, ?_⟩
        rw [declarations, if_pos hlet, ho]
        show (declarations (some room) o.rest >>= _) = _
        rw [hsame, hbody]
        show (closing body.rest >>= _) = _
        rw [hbrace]
        show (o.value.close body.value brace.value >>= _) = _
        rw [hd]
        show (declarations (some (room + 1)) brace.rest >>= _) = _
        rw [hlater]
        rfl
      · exact ⟨stop, declarations_of_body_tooDeep hlet ho hdeep⟩

/-- A run that is cut off would have had one body more open than there is room for. -/
theorem reaches_of_tooDeep {n room : Nat} {ts stop : List Token}
    (h : declarations (some room) ts = .error (.tooDeep stop)) : Reaches n ts (n + room + 1) := by
  rw [declarations] at h
  split at h
  · next hlet =>
    rcases Except.bind_eq_error_iff.1 h with h | ⟨o, ho, h⟩
    · exact absurd (opening_error h) Misfit.ne_tooDeep
    have holt := o.lt_bound
    rcases Except.bind_eq_error_iff.1 h with h | ⟨inner, henter, h⟩
    -- The first opening is one too many only if there was no room at all.
    · obtain rfl : room = 0 := Option.some.inj (enter_error h).2
      exact .body hlet ho .here
    obtain ⟨left, rfl, rfl⟩ : ∃ left, room = left + 1 ∧ inner = some left := by
      cases room with
      | zero => cases henter
      | succ left =>
        cases henter
        exact ⟨left, rfl, rfl⟩
    rcases Except.bind_eq_error_iff.1 h with h | ⟨body, hbody, h⟩
    · have hbody : Reaches (n + 1) o.rest (n + 1 + left + 1) := reaches_of_tooDeep h
      rw [show n + (left + 1) + 1 = n + 1 + left + 1 by omega]
      exact .body hlet ho hbody
    have hbodylt := body.lt_bound
    rcases Except.bind_eq_error_iff.1 h with h | ⟨brace, hbrace, h⟩
    · exact absurd (closing_error h) Misfit.ne_tooDeep
    have hbracelt := brace.lt_bound
    rcases Except.bind_eq_error_iff.1 h with h | ⟨d, hd, h⟩
    · exact absurd h close_ne_tooDeep
    rcases Except.bind_eq_error_iff.1 h with h | ⟨later, _, h⟩
    -- A body that is read with a limit is read without one, as `Reaches` needs it.
    · have hunbounded : declarations none o.rest = .ok body := by
        rcases declarations_eq_or_tooDeep (some left) o.rest with hsame | ⟨_, hdeep⟩
        · rw [← hsame, hbody]
        · rw [hbody] at hdeep
          cases hdeep
      exact .later hlet ho hunbounded hbrace hd (reaches_of_tooDeep h)
    · cases h
  · cases h
termination_by ts.length
decreasing_by all_goals omega

/-- The limit cuts off exactly the runs that have more bodies open at some moment. -/
theorem exists_program_tooDeep_iff {limit : Nat} :
    (∃ stop, program (some limit) ts = .error (.tooDeep stop)) ↔
      ∃ m, limit < m ∧ Reaches 0 ts m := by
  constructor
  · rintro ⟨stop, h⟩
    rcases Except.bind_eq_error_iff.1 h with h | ⟨ds, _, h⟩
    · exact ⟨0 + limit + 1, by omega, reaches_of_tooDeep h⟩
    · split at h <;> cases h
  · rintro ⟨m, hm, h⟩
    have hlt : 0 + limit < m := by omega
    obtain ⟨stop, hstop⟩ := h.tooDeep hlt
    refine ⟨stop, ?_⟩
    rw [program, hstop]
    rfl

/-! ## What comes behind -/

/-- What is too deep is so whatever comes behind it. -/
theorem verdictFrom_tooDeep_append {room : Room} {s : Grammar.State} {lets : List (Option String)}
    {stop : List Token} (h : verdictFrom room s lets ts = .error (.tooDeep stop))
    (rest : List Token) :
    verdictFrom room s lets (ts ++ rest) = .error (.tooDeep (stop ++ rest)) := by
  induction ts generalizing s lets with
  | nil =>
    rw [verdictFrom] at h
    split at h <;> cases h
  | cons t ts ih =>
    rw [List.cons_append]
    cases hstep : s.step t.type with
    | none =>
      rw [verdictFrom_stuck hstep] at h
      cases h
    | some s' =>
      rw [verdictFrom_cons rfl hstep] at h ⊢
      rcases Except.bind_eq_error_iff.1 h with h | ⟨lets', haccept, h⟩
      · obtain ⟨rfl, hfull⟩ := accept_tooDeep_congr h
        rw [hfull]
        rfl
      · rw [accept_ok_congr haccept]
        exact ih h

theorem program_tooDeep_append {room : Room} {stop : List Token}
    (h : program room ts = .error (.tooDeep stop)) (rest : List Token) :
    program room (ts ++ rest) = .error (.tooDeep (stop ++ rest)) := by
  rw [program_eq_error_iff] at h ⊢
  exact verdictFrom_tooDeep_append h rest

/-! ## Runs within the limit -/

/-- A run that stays within the limit has the outcome that it has without one. -/
theorem program_eq_unbounded_of_reaches {limit : Nat} (h : ∀ m, Reaches 0 ts m → m ≤ limit) :
    program (some limit) ts = program none ts := by
  rcases program_eq_or_tooDeep (some limit) ts with heq | hdeep
  · exact heq
  · obtain ⟨m, hm, hreaches⟩ := exists_program_tooDeep_iff.1 hdeep
    exact absurd (h m hreaches) (Nat.not_le_of_lt hm)

/-- Without a limit nothing is too deep. -/
theorem program_none_ne_tooDeep {stop : List Token} :
    program none ts ≠ .error (.tooDeep stop) := by
  intro h
  rcases program_error h with hmisfit | ⟨_, -, -, limit, _, hroom, _⟩
  · exact Misfit.ne_tooDeep hmisfit
  · cases hroom

/-- A run that returns a tree has as many bodies open at its deepest moment as the tree is deep. -/
theorem reaches_depth {p : Program} (h : program none ts = .ok p) :
    Reaches 0 ts p.depth ∧ ∀ m, Reaches 0 ts m → m ≤ p.depth := by
  have hspelled : p.SpelledBy ts := (program_eq_ok_iff.1 h).1
  have hbound : ∀ m, Reaches 0 ts m → m ≤ p.depth := by
    intro m hm
    apply Nat.le_of_not_lt
    intro hlt
    have hroom : program (some p.depth) ts = .ok p := program_eq_ok_iff.2 ⟨hspelled, Nat.le_refl _⟩
    obtain ⟨stop, hdeep⟩ := exists_program_tooDeep_iff.2 ⟨m, hlt, hm⟩
    rw [hdeep] at hroom
    cases hroom
  refine ⟨?_, hbound⟩
  cases hdepth : p.depth with
  | zero => exact .here
  | succ d =>
    -- One body less has no room for the tree, so the run has to get beyond that limit.
    rcases program_eq_or_tooDeep (some d) ts with hsame | hdeep
    · have hroom : p.depth ≤ d := (program_eq_ok_iff.1 (hsame.trans h)).2
      omega
    · obtain ⟨m, hm, hreaches⟩ := exists_program_tooDeep_iff.1 hdeep
      have hle := hbound m hreaches
      rwa [show m = d + 1 by omega] at hreaches

end Parse

open Parse

/-- Parsing has the outcome that it has without a limit, or the tokens are too deeply nested. It has
the former if no more than 210 bodies are open at any moment of the run without a limit, and the
latter if 500 are at some moment, whatever comes behind. So a text that is accepted gets the tree
that it gets without a limit. -/
theorem parse_eq_unbounded_or_tooDeep [CallStack] (ts : List Token) :
    (parse ts = parseUnbounded ts ∨ ∃ stop, parse ts = .error (.tooDeep stop)) ∧
      (∀ stop, parseUnbounded ts ≠ .error (.tooDeep stop)) ∧
      ((∀ m, Reaches 0 ts m → m ≤ 210) → parse ts = parseUnbounded ts) ∧
      (∀ m, 500 ≤ m → Reaches 0 ts m →
        ∀ rest, ∃ stop, parse (ts ++ rest) = .error (.tooDeep stop)) ∧
      (∀ p, parse ts = .ok p → parseUnbounded ts = .ok p) ∧
      ∀ source strict p, tokenize source strict = .ok ts → parseSource source strict = .ok p →
        parseUnbounded ts = .ok p := by
  have houtcome : parse ts = parseUnbounded ts ∨ ∃ stop, parse ts = .error (.tooDeep stop) :=
    program_eq_or_tooDeep _ _
  have htree : ∀ p, parse ts = .ok p → parseUnbounded ts = .ok p := by
    intro p hp
    rcases houtcome with heq | ⟨stop, hdeep⟩
    · rw [← heq, hp]
    · rw [hdeep] at hp
      cases hp
  refine ⟨houtcome, fun _ => program_none_ne_tooDeep, fun hbound => ?_,
    fun m hm hreaches rest => ?_, htree, fun source strict p hts hp => ?_⟩
  · apply program_eq_unbounded_of_reaches
    intro m hreaches
    exact Nat.le_trans (hbound m hreaches) CallStack.bodies_ge
  -- What is too deep in the tokens so far is so before any others are looked at.
  · have hlimit : CallStack.bodies < m := Nat.lt_of_lt_of_le CallStack.bodies_lt hm
    obtain ⟨stop, hstop⟩ := exists_program_tooDeep_iff.2 ⟨m, hlimit, hreaches⟩
    exact ⟨_, program_tooDeep_append hstop rest⟩
  · rw [parseSource_of_tokens hts] at hp
    exact htree p (Except.mapError_eq_ok_iff.1 hp)

def openingTokens : List Token :=
  [⟨.letWord, some "let", 0, 3⟩, ⟨.identifier, some "a", 4, 5⟩, ⟨.assign, none, 6, 7⟩,
    ⟨.functionWord, none, 8, 16⟩, ⟨.leftParen, none, 17, 18⟩, ⟨.rightParen, none, 19, 20⟩,
    ⟨.leftCurly, none, 21, 22⟩]

def nestedOpenings : Nat → List Token
  | 0 => []
  | n + 1 => openingTokens ++ nestedOpenings n

/-- Openings inside one another open as many bodies. -/
theorem reaches_nestedOpenings (n m : Nat) : Reaches n (nestedOpenings m) (n + m) := by
  induction m generalizing n with
  | zero => exact .here
  | succ m ih =>
    rw [show n + (m + 1) = n + 1 + m by omega]
    exact .body rfl rfl (ih (n + 1))

/-- Five hundred openings are too deeply nested whatever follows; two are only not closed. -/
theorem nestedOpenings_tooDeep :
    (∀ rest, ∃ stop, parse (nestedOpenings 500 ++ rest) = .error (.tooDeep stop)) ∧
      parse (nestedOpenings 2) = parseUnbounded (nestedOpenings 2) := by
  refine ⟨(parse_eq_unbounded_or_tooDeep (nestedOpenings 500)).2.2.2.1 500 (Nat.le_refl _) ?_, ?_⟩
  · have hreaches := reaches_nestedOpenings 0 500
    rwa [Nat.zero_add] at hreaches
  · rcases (parse_eq_unbounded_or_tooDeep (nestedOpenings 2)).1 with heq | ⟨stop, hdeep⟩
    · exact heq
    · have hopen : parse (nestedOpenings 2) = .error (.unexpected [.letWord, .rightCurly] []) := by
        decide +kernel
      rw [hopen] at hdeep
      cases hdeep

end LetFun
