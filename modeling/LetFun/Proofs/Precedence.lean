import LetFun.Proofs.Indifference
import Mathlib.Data.Nat.Find
/-!
# Which of several faults is reported

The value of an identifier is checked where the identifier stands, and the value of a `let` where
the declaration is closed. Of the values that do not fit the first one checked is reported, before
any type that does not fit further on (`parse_first_fault`).
-/

namespace LetFun

open Grammar

/-! ## Values that do not fit -/

def Token.Nameless (t : Token) : Prop :=
  t.type = .identifier ∧ t.value = none

/-- After the tokens `q`, the token `t` closes a declaration, and the value of its `let` is not the
spelling of a kind. -/
def ClosesKindless (q : List Token) (t : Token) : Prop :=
  ∃ before l inner, q = before ++ l :: inner ∧
    IsStatement (Token.types (l :: (inner ++ [t]))) ∧ ∀ kind : Kind, l.value ≠ some kind.name

def Faultless (q : List Token) : Prop :=
  ∀ front t, front ++ [t] <+: q → ¬ t.Nameless ∧ ¬ ClosesKindless front t

/-! ## Declarations that are not finished -/

-- An opening has one `let`, in front.
theorem Grammar.IsOpening.exists_cons {o : List TokenType} (h : IsOpening o) :
    ∃ rest, o = .letWord :: rest ∧ ∀ type ∈ rest, type ≠ .letWord ∧ type ≠ .rightCurly := by
  obtain ⟨hname, hparams⟩ := h
  rename_i name params
  have hname' : ∀ type ∈ name, type = .identifier := by
    rcases hname with rfl | rfl <;> simp
  refine ⟨_, rfl, fun type htype => ?_⟩
  simp only [List.mem_cons, List.mem_append, List.not_mem_nil, or_false] at htype
  rcases htype with rfl | rfl | rfl | hmem | rfl | hmem | rfl | rfl
  · decide
  · decide
  · decide
  · rw [hname' type hmem]
    decide
  · decide
  · rw [hparams type hmem]
    decide
  · decide
  · decide

-- The last token of a statement closes it, and the others are an opening and a body.
theorem exists_opening_of_isStatement {l t : Token} {inner : List Token}
    (h : IsStatement (Token.types (l :: (inner ++ [t])))) :
    t.type = .rightCurly ∧ ∃ o body, inner = o ++ body ∧ IsOpening (Token.types (l :: o)) ∧
      IsProgram (Token.types body) := by
  obtain ⟨o, body, ho, hbody, htypes⟩ := isStatement_iff.1 h
  have hlast : Token.types (l :: inner) ++ [t.type] = (o ++ body) ++ [.rightCurly] := by
    rw [← htypes]
    simp
  obtain ⟨hfront, ht⟩ := List.append_inj' hlast rfl
  obtain ⟨oq, bq, hq, rfl, rfl⟩ := List.map_eq_append_iff.1 hfront
  obtain ⟨rest, hrest, _⟩ := ho.exists_cons
  obtain ⟨m, oq, rfl, _, _⟩ := List.map_eq_cons_iff.1 hrest
  rw [List.cons_append, List.cons.injEq] at hq
  obtain ⟨rfl, rfl⟩ := hq
  exact ⟨(List.cons.inj ht).1, oq, bq, rfl, ho, hbody⟩

namespace Parse

/-- The `let` values of the declarations that are not finished, after one more token. -/
def carry (lets : List (Option String)) (t : Token) : List (Option String) :=
  match t.type with
  | .letWord => t.value :: lets
  | .rightCurly => lets.tail
  | _ => lets

/-- The `let` values of the declarations that are not finished after these tokens, innermost
first. -/
def openLets (q : List Token) : List (Option String) :=
  q.foldl carry []

theorem carry_letWord {t : Token} (h : t.type = .letWord) (lets : List (Option String)) :
    carry lets t = t.value :: lets := by
  rw [carry, h]

theorem carry_rightCurly {t : Token} (h : t.type = .rightCurly) (lets : List (Option String)) :
    carry lets t = lets.tail := by
  rw [carry, h]

theorem carry_plain {t : Token} (h : t.type ≠ .letWord ∧ t.type ≠ .rightCurly)
    (lets : List (Option String)) : carry lets t = lets := by
  unfold carry
  split
  · next hlet => exact absurd hlet h.1
  · next hcurly => exact absurd hcurly h.2
  · rfl

theorem foldl_carry_plain {q : List Token}
    (h : ∀ type ∈ Token.types q, type ≠ .letWord ∧ type ≠ .rightCurly)
    (lets : List (Option String)) : q.foldl carry lets = lets := by
  induction q with
  | nil => rfl
  | cons t q ih =>
    rw [Token.types, List.map_cons, List.forall_mem_cons] at h
    rw [List.foldl_cons, carry_plain h.1]
    exact ih h.2

-- After an opening its own declaration is not finished either.
theorem foldl_carry_opening {l : Token} {o : List Token} (h : IsOpening (Token.types (l :: o)))
    (lets : List (Option String)) : (l :: o).foldl carry lets = l.value :: lets := by
  obtain ⟨rest, hrest, hplain⟩ := h.exists_cons
  obtain ⟨hl, rfl⟩ := List.cons.inj hrest
  rw [List.foldl_cons, carry_letWord hl]
  exact foldl_carry_plain hplain _

/-- A whole program leaves the open declarations as they were. -/
theorem foldl_carry_program {q : List Token} (h : IsProgram (Token.types q))
    (lets : List (Option String)) : q.foldl carry lets = lets := by
  generalize htypes : Token.types q = types at h
  induction h using IsProgram.induction generalizing q lets with
  | nil =>
    rw [List.map_eq_nil_iff.1 htypes]
    rfl
  | cons ho _ _ ihbody ihrest =>
    obtain ⟨o, q, rfl, rfl, htail⟩ := List.map_eq_append_iff.1 htypes
    obtain ⟨body, q, rfl, hbody, htail⟩ := List.map_eq_append_iff.1 htail
    obtain ⟨brace, rest, rfl, hbrace, hrest⟩ := List.map_eq_cons_iff.1 htail
    obtain ⟨_, hcons, _⟩ := ho.exists_cons
    obtain ⟨l, o, rfl, _, _⟩ := List.map_eq_cons_iff.1 hcons
    rw [List.foldl_append, foldl_carry_opening ho, List.foldl_append, ihbody _ hbody,
      List.foldl_cons, carry_rightCurly hbrace, List.tail_cons]
    exact ihrest _ hrest

/-- An opening leaves one declaration open, and what follows in its body closes no more than it
opens. -/
theorem openLets_of_opening {before o body : List Token} {l : Token}
    (ho : IsOpening (Token.types (l :: o))) (hbody : IsProgram (Token.types body)) :
    openLets (before ++ l :: (o ++ body)) = l.value :: openLets before := by
  rw [openLets, List.foldl_append, ← List.cons_append, List.foldl_append, foldl_carry_opening ho,
    foldl_carry_program hbody]
  rfl

/-- A brace that fits closes the innermost declaration, and the value of its `let` is the first of
those not finished. -/
theorem exists_closed {q : List Token} {n : Nat}
    (h : State.start.run (Token.types q) = some ⟨.between, n + 1⟩) :
    ∃ before l inner, q = before ++ l :: inner ∧ openLets q = l.value :: openLets before ∧
      ∀ t : Token, t.type = .rightCurly → IsStatement (Token.types (l :: (inner ++ [t]))) := by
  obtain ⟨types, read, hinside, hread, htypes⟩ := State.hasRead_of_run h
  rw [show read = [] from hread, List.append_nil] at htypes
  cases hinside with
  | body hbefore ho hbody =>
    obtain ⟨before, q, rfl, _, htypes⟩ := List.map_eq_append_iff.1 htypes
    obtain ⟨o, body, rfl, rfl, rfl⟩ := List.map_eq_append_iff.1 htypes
    obtain ⟨_, hcons, _⟩ := ho.exists_cons
    obtain ⟨l, o, rfl, _, _⟩ := List.map_eq_cons_iff.1 hcons
    refine ⟨before, l, o ++ body, rfl, openLets_of_opening ho hbody, fun t ht => ?_⟩
    refine isStatement_iff.2 ⟨_, _, ho, hbody, ?_⟩
    rw [← ht]
    simp

/-! ## Checks -/

/-- An identifier without a value is refused for its name. -/
theorem accept_of_nameless {room : Room} {n : Nat} {lets : List (Option String)} {t : Token}
    (h : t.Nameless) (ts : List Token) : accept room n lets t ts =
      .error (.invalid ⟨.identifier, [⟨[.field "name"], .notText⟩]⟩) := by
  simp only [accept, h.1, identifierOf, h.2]
  rfl

/-- A closing brace is refused for the `let` of the declaration that it closes. -/
theorem accept_of_closesKindless {room : Room} {n : Nat} {q : List Token} {t : Token}
    (h : ClosesKindless q t) (ts : List Token) : accept room n (openLets q) t ts =
      .error (.invalid ⟨.declaration, [⟨[.field "kind"], .notKind⟩]⟩) := by
  obtain ⟨before, l, inner, rfl, hstatement, hkind⟩ := h
  obtain ⟨ht, o, body, rfl, ho, hbody⟩ := exists_opening_of_isStatement hstatement
  have hnone : l.value.bind Kind.ofName? = none := by
    refine Option.eq_none_iff_forall_ne_some.2 fun kind hbind => ?_
    exact hkind kind (Kind.bind_ofName?_eq_some_iff.1 hbind)
  simp only [accept, ht, openLets_of_opening ho hbody, hnone]

-- Without a limit, a token that is in its place is refused only for its value.
theorem accept_of_fits {q : List Token} {t : Token} {s s' : State}
    (hrun : State.start.run (Token.types q) = some s) (hstep : s.step t.type = some s')
    (hname : ¬ t.Nameless) (hkind : ¬ ClosesKindless q t) (ts : List Token) :
    accept none s.opened (openLets q) t ts = .ok (openLets (q ++ [t])) := by
  rw [openLets, openLets, List.foldl_append, List.foldl_cons, List.foldl_nil]
  by_cases hlet : t.type = .letWord
  · rw [carry_letWord hlet]
    simp only [accept, hlet]
  by_cases hcurly : t.type = .rightCurly
  · rw [hcurly] at hstep
    obtain ⟨n, rfl⟩ : ∃ n, s = ⟨.between, n + 1⟩ := by
      unfold State.step at hstep
      split at hstep <;> simp_all
    -- The brace closes the declaration of the innermost open `let`, whose value is checked now.
    obtain ⟨before, l, inner, hq, hopen, hclosed⟩ := exists_closed hrun
    rw [carry_rightCurly hcurly, ← openLets, hopen]
    simp only [accept, hcurly]
    cases hbind : l.value.bind Kind.ofName? with
    | some kind => rfl
    | none =>
      refine absurd ⟨before, l, inner, hq, hclosed t hcurly, fun kind hvalue => ?_⟩ hkind
      rw [Kind.bind_ofName?_eq_some_iff.2 hvalue] at hbind
      cases hbind
  rw [carry_plain ⟨hlet, hcurly⟩]
  by_cases hidentifier : t.type = .identifier
  · cases hvalue : t.value with
    | none => exact absurd ⟨hidentifier, hvalue⟩ hname
    | some name =>
      simp only [accept, hidentifier, identifierOf, hvalue]
      rfl
  · unfold accept
    split
    · contradiction
    · contradiction
    · rfl
    · contradiction
    · rfl

/-- Faultless tokens that follow the grammar are read to their end. -/
theorem verdict_faultless {q : List Token} {s : State}
    (hrun : State.start.run (Token.types q) = some s) (hq : Faultless q) (rest : List Token) :
    verdict none (q ++ rest) = verdictFrom none s (openLets q) rest := by
  induction q using List.reverseRecOn generalizing s rest with
  | nil =>
    cases hrun
    rfl
  | append_singleton q t ih =>
    rw [Token.types, List.map_append, State.run_append] at hrun
    obtain ⟨u, hu, hrun⟩ := Option.bind_eq_some_iff.1 hrun
    have hstep : u.step t.type = some s := by
      obtain ⟨v, hv, hend⟩ := Option.bind_eq_some_iff.1 hrun
      rw [hv]
      exact hend
    have hfront : Faultless q := fun front v hv => hq front v (hv.trans (List.prefix_append q [t]))
    obtain ⟨hname, hkind⟩ := hq q t List.prefix_rfl
    rw [List.append_assoc, List.singleton_append, ih hu hfront, verdictFrom_cons rfl hstep,
      accept_of_fits hu hstep hname hkind]
    rfl

end Parse

/-! ## The first fault -/

/-- The grammar goes on over the first `k` tokens, and over no more. -/
structure FitsUpTo (ts : List Token) (k : Nat) : Prop where
  le_length : k ≤ ts.length
  viable : Viable (Token.types (ts.take k))
  stuck : k < ts.length → ¬ Viable (Token.types (ts.take (k + 1)))

def NamelessAt (ts : List Token) (i : Nat) : Prop :=
  ∃ t, ts[i]? = some t ∧ t.Nameless

def ClosesKindlessAt (ts : List Token) (c : Nat) : Prop :=
  ∃ t, ts[c]? = some t ∧ ClosesKindless (ts.take c) t

def FirstBelow (k : Nat) (P : Nat → Prop) (i : Nat) : Prop :=
  i < k ∧ P i ∧ ∀ j < i, ¬ P j

theorem FirstBelow.le {k i j : Nat} {P : Nat → Prop} (h : FirstBelow k P j) (hi : P i) : j ≤ i := by
  by_contra hlt
  exact h.2.2 i (by omega) hi

/-- Where a property holds below a bound, it does so somewhere first. -/
theorem exists_firstBelow {k i : Nat} {P : Nat → Prop} (hi : i < k) (h : P i) :
    ∃ j, FirstBelow k P j := by
  classical
  have hex : ∃ i, P i := ⟨i, h⟩
  refine ⟨Nat.find hex, ?_, Nat.find_spec hex, fun j hj => Nat.find_min hex hj⟩
  exact Nat.lt_of_le_of_lt (Nat.find_min' hex h) hi

/-- Some number of tokens fits, and one more does not. -/
theorem exists_fitsUpTo (ts : List Token) : ∃ k, FitsUpTo ts k := by
  by_cases h : ∃ j, ¬ Viable (Token.types (ts.take j))
  · obtain ⟨k, hk⟩ : ∃ k, Nat.find h = k + 1 := by
      refine Nat.exists_eq_succ_of_ne_zero fun hzero => Nat.find_spec h ?_
      rw [hzero]
      exact IsProgram.nil.viable
    have hstuck := Nat.find_spec h
    rw [hk] at hstuck
    have hviable : Viable (Token.types (ts.take k)) :=
      not_not.1 (Nat.find_min h (by omega))
    refine ⟨k, ?_, hviable, fun _ => hstuck⟩
    by_contra hlt
    rw [List.take_of_length_le (by omega)] at hstuck hviable
    exact hstuck hviable
  · rw [not_exists] at h
    exact ⟨ts.length, Nat.le_refl _, not_not.1 (h ts.length), fun hlt => absurd hlt (by omega)⟩

namespace FitsUpTo

variable {ts : List Token} {k k' : Nat}

theorem viable_take (h : FitsUpTo ts k) {j : Nat} (hj : j ≤ k) :
    Viable (Token.types (ts.take j)) :=
  h.viable.of_prefix ((List.take_prefix_take_left hj).map _)

theorem le (h : FitsUpTo ts k) (h' : FitsUpTo ts k') : k ≤ k' := by
  by_contra hlt
  have hlength := h.le_length
  exact h'.stuck (by omega) (h.viable_take (by omega))

/-- There is only one number of tokens that fit. -/
theorem unique (h : FitsUpTo ts k) (h' : FitsUpTo ts k') : k' = k :=
  Nat.le_antisymm (h'.le h) (h.le h')

end FitsUpTo

-- Before the first index with a fault the tokens are faultless.
theorem faultless_take {ts : List Token} {n : Nat}
    (hname : ∀ i < n, ¬ NamelessAt ts i) (hkind : ∀ c < n, ¬ ClosesKindlessAt ts c) :
    Faultless (ts.take n) := by
  intro front t h
  have hlength := h.length_le
  rw [List.length_append, List.length_singleton, List.length_take] at hlength
  obtain ⟨rest, hts⟩ := h.trans (List.take_prefix n ts)
  rw [List.append_assoc, List.singleton_append] at hts
  have hget : ts[front.length]? = some t := by
    rw [← hts, List.getElem?_append_right (Nat.le_refl _), Nat.sub_self]
    rfl
  have htake : ts.take front.length = front := by rw [← hts, List.take_left]
  constructor
  · intro hfault
    exact hname front.length (by omega) ⟨t, hget, hfault⟩
  · intro hfault
    exact hkind front.length (by omega) ⟨t, hget, htake.symm ▸ hfault⟩

section FirstFault

variable {ts : List Token} {k : Nat} (hk : FitsUpTo ts k)
include hk

-- The first check that fails decides the verdict.
theorem FitsUpTo.verdict_of_fault {j : Nat} (hj : j < k) {t : Token} (ht : ts[j]? = some t)
    (hfaultless : Faultless (ts.take j)) {e : ParseError}
    (he : ∀ n us, Parse.accept none n (Parse.openLets (ts.take j)) t us = .error e) :
    Parse.verdict none ts = .error e := by
  have hsplit : ts = ts.take j ++ t :: ts.drop (j + 1) := by
    obtain ⟨hlt, rfl⟩ := List.getElem?_eq_some_iff.1 ht
    rw [List.getElem_cons_drop, List.take_append_drop]
  have htake : ts.take (j + 1) = ts.take j ++ [t] := by
    rw [List.take_add_one, ht]
    rfl
  obtain ⟨s', hs'⟩ := viable_iff_exists_run.1 (hk.viable_take hj)
  rw [htake, Token.types, List.map_append, State.run_append] at hs'
  obtain ⟨s, hs, hstep⟩ := Option.bind_eq_some_iff.1 hs'
  obtain ⟨v, hv, _⟩ := Option.bind_eq_some_iff.1 hstep
  rw [hsplit, Parse.verdict_faultless hs hfaultless, Parse.verdictFrom_cons rfl hv, he]
  rfl

-- Where no check fails, the types decide.
theorem FitsUpTo.verdict_of_faultless (hfaultless : Faultless (ts.take k)) :
    (IsProgram (Token.types ts) → Parse.verdict none ts = .ok ()) ∧
      (¬ IsProgram (Token.types ts) →
        ∃ expected rest, Parse.verdict none ts = .error (.unexpected expected rest)) := by
  obtain ⟨s, hs⟩ := viable_iff_exists_run.1 hk.viable
  have hverdict := Parse.verdict_faultless hs hfaultless (ts.drop k)
  rw [List.take_append_drop] at hverdict
  rw [hverdict, isProgram_iff_run]
  -- Either all tokens fit, and only the end of the program may be missing, or the next one is
  -- stuck.
  cases hrest : ts.drop k with
  | nil =>
    have hall : ts.take k = ts := List.take_of_length_le (List.drop_eq_nil_iff.1 hrest)
    rw [hall] at hs
    rw [hs, Parse.verdictFrom, Option.some.injEq]
    constructor
    · intro hstart
      rw [if_pos hstart]
    · intro hstart
      rw [if_neg hstart]
      exact ⟨_, _, rfl⟩
  | cons t rest =>
    have hlt : k < ts.length := by
      have hlength := congrArg List.length hrest
      rw [List.length_drop, List.length_cons] at hlength
      omega
    have htake : ts.take (k + 1) = ts.take k ++ [t] := by
      rw [List.take_add_one, ← List.head?_drop, hrest]
      rfl
    have hstuck := hk.stuck hlt
    rw [htake, Token.types, List.map_append, List.map_singleton,
      viable_append_singleton_iff hs, Bool.not_eq_true, Option.isSome_eq_false_iff,
      Option.isNone_iff_eq_none] at hstuck
    constructor
    · intro hprogram
      rw [← List.take_append_drop k ts, hrest, Token.types, List.map_append, State.run_append, hs,
        Option.bind_some, List.map_cons, State.run_cons, hstuck] at hprogram
      cases hprogram
    · intro _
      exact ⟨_, _, Parse.verdictFrom_stuck hstuck rest⟩

end FirstFault

/-! ## Values that are not checked -/

-- The values that are checked decide whether a value is refused.
theorem Parse.verdictFrom_sameChecked {room : Room} {ts us : List Token} {node : InvalidNode}
    (h : List.Forall₂ Token.SameChecked ts us) {s : State} {lets : List (Option String)}
    (hts : verdictFrom room s lets ts = .error (.invalid node)) :
    verdictFrom room s lets us = .error (.invalid node) := by
  have hsame := verdictFrom_sameOutcome h room s lets
  rw [hts] at hsame
  obtain ⟨_, hus, ⟨⟩⟩ := hsame.exists_error
  exact hus

/-! ## The outcome -/

/-- Let `k` be the number of tokens that follow the grammar. An identifier without a value among
them, or else a `let` whose value is no kind, is reported where it is checked first, and what does
not follow the grammar only if there is neither. No other value matters. -/
theorem parse_first_fault [CallStack] (ts : List Token)
    (hnested : NestedWithin CallStack.bodies (Token.types ts)) :
    ∃ k, (FitsUpTo ts k ∧ ∀ k', FitsUpTo ts k' → k' = k) ∧
      (∀ i, FirstBelow k (NamelessAt ts) i →
        (∀ c, FirstBelow k (ClosesKindlessAt ts) c → i < c) →
        parse ts = .error (.invalid ⟨.identifier, [⟨[.field "name"], .notText⟩]⟩)) ∧
      (∀ c, FirstBelow k (ClosesKindlessAt ts) c →
        (∀ i, FirstBelow k (NamelessAt ts) i → ¬ i < c) →
        parse ts = .error (.invalid ⟨.declaration, [⟨[.field "kind"], .notKind⟩]⟩)) ∧
      ((∀ i, ¬ FirstBelow k (NamelessAt ts) i) → (∀ c, ¬ FirstBelow k (ClosesKindlessAt ts) c) →
        (IsProgram (Token.types ts) → ∃ p, parse ts = .ok p) ∧
        (¬ IsProgram (Token.types ts) →
          ∃ expected rest, parse ts = .error (.unexpected expected rest))) ∧
      ∀ us node, List.Forall₂ Token.SameChecked ts us →
        (parse us = .error (.invalid node) ↔ parse ts = .error (.invalid node)) := by
  have hparse : parse ts = Parse.program none ts := Parse.program_eq_unbounded hnested
  obtain ⟨k, hk⟩ := exists_fitsUpTo ts
  refine ⟨k, ⟨hk, fun k' => hk.unique⟩, ?_, ?_, ?_, ?_⟩
  · intro i hi hfirst
    obtain ⟨t, ht, hname⟩ := hi.2.1
    -- No declaration is closed without a kind before `i`, or the first one would come before it.
    have hfaultless : Faultless (ts.take i) := by
      apply faultless_take hi.2.2
      intro c hc hkind
      obtain ⟨c', hc'⟩ := exists_firstBelow (Nat.lt_trans hc hi.1) hkind
      have hle := hc'.le hkind
      have hlt := hfirst c' hc'
      omega
    rw [hparse, Parse.program_eq_error_iff]
    exact hk.verdict_of_fault hi.1 ht hfaultless fun _ => Parse.accept_of_nameless hname
  · intro c hc hfirst
    obtain ⟨t, ht, hkind⟩ := hc.2.1
    -- No identifier is nameless before `c`, for the same reason.
    have hfaultless : Faultless (ts.take c) := by
      refine faultless_take (fun i hi hname => ?_) hc.2.2
      obtain ⟨i', hi'⟩ := exists_firstBelow (Nat.lt_trans hi hc.1) hname
      have hle := hi'.le hname
      have hlt := hfirst i' hi'
      omega
    rw [hparse, Parse.program_eq_error_iff]
    exact hk.verdict_of_fault hc.1 ht hfaultless fun _ => Parse.accept_of_closesKindless hkind
  · intro hname hkind
    -- Without a first fault below `k` there is none, so that all tokens that fit are accepted.
    have hfaultless : Faultless (ts.take k) := by
      refine faultless_take (fun i hi h => ?_) (fun c hc h => ?_)
      · obtain ⟨i', hi'⟩ := exists_firstBelow hi h
        exact hname i' hi'
      · obtain ⟨c', hc'⟩ := exists_firstBelow hc h
        exact hkind c' hc'
    obtain ⟨haccepted, hrefused⟩ := hk.verdict_of_faultless hfaultless
    rw [hparse]
    constructor
    · intro hprogram
      exact Parse.exists_program_eq_ok_iff.2 (haccepted hprogram)
    · intro hprogram
      obtain ⟨expected, rest, hverdict⟩ := hrefused hprogram
      exact ⟨expected, rest, Parse.program_eq_error_iff.2 hverdict⟩
  · intro us node hsame
    rw [parse, parse, Parse.program_eq_error_iff, Parse.program_eq_error_iff]
    constructor
    · exact Parse.verdictFrom_sameChecked (hsame.flip.imp fun _ _ h => h.symm)
    · exact Parse.verdictFrom_sameChecked hsame

/-- The tokens of a declaration inside another, neither of which starts with a kind, and of `let`,
an identifier without a name and a parenthesis that does not fit. -/
def kindlessTokens : List Token :=
  [⟨.letWord, some "set", 0, 3⟩, ⟨.identifier, some "a", 4, 5⟩, ⟨.assign, none, 6, 7⟩,
    ⟨.functionWord, none, 8, 16⟩, ⟨.leftParen, none, 16, 17⟩, ⟨.rightParen, none, 17, 18⟩,
    ⟨.leftCurly, none, 18, 19⟩, ⟨.letWord, none, 19, 19⟩, ⟨.identifier, some "b", 20, 21⟩,
    ⟨.assign, some "x", 22, 23⟩, ⟨.functionWord, none, 24, 32⟩, ⟨.leftParen, none, 32, 33⟩,
    ⟨.rightParen, none, 33, 34⟩, ⟨.leftCurly, none, 34, 35⟩, ⟨.rightCurly, none, 35, 36⟩,
    ⟨.rightCurly, none, 36, 37⟩, ⟨.letWord, some "let", 38, 41⟩, ⟨.identifier, none, 42, 43⟩,
    ⟨.rightParen, none, 44, 45⟩]

/-- Declarations are closed by closing braces. -/
theorem ClosesKindlessAt.type_eq {ts : List Token} {c : Nat} (h : ClosesKindlessAt ts c) :
    ts[c]?.map (·.type) = some .rightCurly := by
  obtain ⟨t, ht, _, _, _, _, hstatement, _⟩ := h
  rw [ht, Option.map_some, (exists_opening_of_isStatement hstatement).1]

/-- The inner declaration is closed before the identifier, and its kind is reported. Where only the
identifier is left, it is reported before the parenthesis. -/
theorem kindlessTokens_first_fault :
    (NestedWithin CallStack.bodies (Token.types kindlessTokens) ∧ FitsUpTo kindlessTokens 18 ∧
      FirstBelow 18 (ClosesKindlessAt kindlessTokens) 14 ∧
      FirstBelow 18 (NamelessAt kindlessTokens) 17 ∧
      parse kindlessTokens = .error (.invalid ⟨.declaration, [⟨[.field "kind"], .notKind⟩]⟩)) ∧
    (FitsUpTo (kindlessTokens.drop 16) 2 ∧ FirstBelow 2 (NamelessAt (kindlessTokens.drop 16)) 1 ∧
      parse (kindlessTokens.drop 16) =
        .error (.invalid ⟨.identifier, [⟨[.field "name"], .notText⟩]⟩)) := by
  have hnested : NestedWithin CallStack.bodies (Token.types kindlessTokens) :=
    nestedWithin_of_length_le (by decide)
  have hfits : FitsUpTo kindlessTokens 18 := ⟨by decide, by decide, fun _ => by decide⟩
  have hbrace : FirstBelow 18 (ClosesKindlessAt kindlessTokens) 14 := by
    have hbefore : ∀ c < 14, kindlessTokens[c]?.map (·.type) ≠ some .rightCurly := by decide
    refine ⟨by decide, ⟨⟨.rightCurly, none, 35, 36⟩, rfl, kindlessTokens.take 7,
      ⟨.letWord, none, 19, 19⟩, (kindlessTokens.take 14).drop 8, rfl, ?_, nofun⟩,
      fun c hc h => hbefore c hc h.type_eq⟩
    exact @IsStatement.intro [] [] [] (.inl rfl) nofun .nil
  have hname : FirstBelow 18 (NamelessAt kindlessTokens) 17 := by
    have hbefore : ∀ i < 17, ∀ t ∈ kindlessTokens[i]?,
        ¬ (t.type = .identifier ∧ t.value = none) := by decide
    refine ⟨by decide, ⟨_, rfl, rfl, rfl⟩, ?_⟩
    rintro i hi ⟨t, ht, hname⟩
    exact hbefore i hi t ht hname
  have hfits' : FitsUpTo (kindlessTokens.drop 16) 2 := ⟨by decide, by decide, fun _ => by decide⟩
  have hname' : FirstBelow 2 (NamelessAt (kindlessTokens.drop 16)) 1 := by
    refine ⟨by decide, ⟨_, rfl, rfl, rfl⟩, ?_⟩
    rintro i hi ⟨t, ht, hname⟩
    obtain rfl : i = 0 := by omega
    cases ht
    cases hname.1
  have hopen : ∀ c < 2, (kindlessTokens.drop 16)[c]?.map (·.type) ≠ some .rightCurly := by decide
  obtain ⟨k, ⟨_, hunique⟩, _, hkind, _⟩ := parse_first_fault kindlessTokens hnested
  obtain rfl := hunique 18 hfits
  obtain ⟨k', ⟨_, hunique'⟩, hidentifier, _⟩ := parse_first_fault (kindlessTokens.drop 16)
    (nestedWithin_of_length_le (by decide))
  obtain rfl := hunique' 2 hfits'
  refine ⟨⟨hnested, hfits, hbrace, hname, hkind 14 hbrace fun i hi hlt => ?_⟩, hfits', hname',
    hidentifier 1 hname' fun c hc => absurd hc.2.1.type_eq (hopen c hc.1)⟩
  exact hname.2.2 i (by omega) hi.2.1

end LetFun
