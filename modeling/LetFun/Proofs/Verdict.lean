import LetFun.Proofs.Grammar.State
import LetFun.Proofs.Parsing
/-!
# The verdict on tokens, one token at a time

The parser reads declarations inside declarations. Whether it accepts, and the error that it reports
otherwise, can be told by going over the tokens once from left to right, with the state of the
grammar and the values of the `let` tokens whose declarations are not finished
(`program_bind_eq_verdict`).
-/

namespace LetFun

open Grammar

/-- The types that are reported as expected where the next one does not fit. -/
def Grammar.State.wanted : State → List TokenType
  | ⟨.between, 0⟩ => [.letWord]
  | ⟨.between, _ + 1⟩ => [.letWord, .rightCurly]
  | ⟨.afterLet, _⟩ => [.identifier]
  | ⟨.afterBinding, _⟩ => [.assign]
  | ⟨.afterAssign, _⟩ => [.functionWord]
  | ⟨.afterFunction, _⟩ => [.leftParen]
  | ⟨.afterName, _⟩ => [.leftParen]
  | ⟨.inParams, _⟩ => [.identifier, .rightParen]
  | ⟨.afterParams, _⟩ => [.leftCurly]

theorem Grammar.State.wanted_ne_nil (s : State) : s.wanted ≠ [] := by
  unfold wanted
  split <;> exact List.cons_ne_nil _ _

/-- The grammar has the reported types where they are reported. -/
theorem Grammar.State.isSome_step_of_mem_wanted {s : State} {t : TokenType} (h : t ∈ s.wanted) :
    (s.step t).isSome := by
  unfold wanted at h
  split at h <;> simp only [List.mem_cons, List.not_mem_nil, or_false] at h
  case h_2 | h_8 => rcases h with rfl | rfl <;> rfl
  all_goals exact h ▸ rfl

-- All types that fit are reported, except that a function may have a name.
theorem Grammar.State.mem_wanted_of_step {s s' : State} {t : TokenType} (h : s.step t = some s') :
    t ∈ s.wanted ∨ s.place = .afterFunction ∧ t = .identifier := by
  unfold step at h
  split at h
  case h_1 n => cases n <;> exact .inl List.mem_cons_self
  case h_6 => exact .inr ⟨rfl, rfl⟩
  case h_12 => cases h
  all_goals exact .inl (by simp [wanted])

/-- What is not expected has no step, but for a name behind `function`. -/
theorem Grammar.State.step_eq_none {s : State} {t : TokenType} (h : t ∉ s.wanted)
    (hname : s.place = .afterFunction → t ≠ .identifier) : s.step t = none := by
  refine Option.eq_none_iff_forall_ne_some.2 fun s' hstep => ?_
  rcases mem_wanted_of_step hstep with hmem | ⟨hplace, ht⟩
  · exact h hmem
  · exact hname hplace ht

namespace Parse

/-- What is checked of a token that the grammar has in its place, inside `opened` bodies: the value
of an identifier, the room for a body, and at the end of a declaration the value of its `let`. The
result is the `let` values of the declarations that are not finished, innermost first. -/
def accept (room : Room) (opened : Nat) (lets : List (Option String)) (t : Token)
    (rest : List Token) : Except ParseError (List (Option String)) :=
  match t.type with
  | .letWord => .ok (t.value :: lets)
  | .identifier => do
    let _ ← identifierOf t
    return lets
  | .leftCurly =>
    match room with
    | none => .ok lets
    | some limit => if opened < limit then .ok lets else .error (.tooDeep rest)
  | .rightCurly =>
    match lets with
    | [] => .ok []
    | value :: lets =>
      match value.bind Kind.ofName? with
      | none => .error (.invalid ⟨.declaration, [⟨[.field "kind"], .notKind⟩]⟩)
      | some _ => .ok lets
  | _ => .ok lets

def verdictFrom (room : Room) (s : State) (lets : List (Option String)) :
    List Token → Except ParseError Unit
  | [] => if s = .start then .ok () else .error (.unexpected s.wanted [])
  | t :: ts =>
    match s.step t.type with
    | none => .error (.unexpected s.wanted (t :: ts))
    | some s' => do
      let lets ← accept room s.opened lets t ts
      verdictFrom room s' lets ts

def verdict (room : Room) (ts : List Token) : Except ParseError Unit :=
  verdictFrom room .start [] ts

variable {room : Room} {n : Nat} {lets : List (Option String)}

/-! ## One token -/

-- What is checked of a token that is in its place never fails because of a type.
theorem accept_ne_unexpected {opened : Nat} {t : Token} {expected : List TokenType}
    {ts rest : List Token} : accept room opened lets t ts ≠ .error (.unexpected expected rest) := by
  unfold accept identifierOf
  intro h
  split at h <;> try cases h
  · split at h <;> cases h
  · split at h <;> try cases h
    split at h <;> cases h
  · split at h <;> try cases h
    split at h <;> cases h

-- What comes behind a token that is accepted does not matter to it.
theorem accept_ok_congr {opened : Nat} {t : Token} {ts : List Token}
    {lets' : List (Option String)} (h : accept room opened lets t ts = .ok lets')
    (us : List Token) : accept room opened lets t us = .ok lets' := by
  by_cases hcurly : t.type = .leftCurly
  · simp only [accept, hcurly] at h ⊢
    cases room with
    | none => exact h
    | some limit =>
      dsimp only at h ⊢
      split at h
      · next hlt =>
        rw [if_pos hlt]
        exact h
      · cases h
  · unfold accept at h ⊢
    split <;> simp_all

-- Only the brace that opens a body needs room.
theorem accept_ne_tooDeep {opened : Nat} {t : Token} {ts rest : List Token}
    (hcurly : t.type ≠ .leftCurly) : accept room opened lets t ts ≠ .error (.tooDeep rest) := by
  unfold accept identifierOf
  intro h
  split at h <;> try cases h
  · split at h <;> cases h
  · contradiction
  · split at h <;> try cases h
    split at h <;> cases h

-- Whether there is room does not depend on what comes behind, which the error is about.
theorem accept_tooDeep_congr {opened : Nat} {t : Token} {ts rest : List Token}
    (h : accept room opened lets t ts = .error (.tooDeep rest)) :
    rest = ts ∧ ∀ us, accept room opened lets t us = .error (.tooDeep us) := by
  by_cases hcurly : t.type = .leftCurly
  · simp only [accept, hcurly] at h ⊢
    cases room with
    | none => cases h
    | some limit =>
      dsimp only at h ⊢
      split at h
      · cases h
      · next hfull =>
        cases h
        exact ⟨rfl, fun us => if_neg hfull⟩
  · exact absurd h (accept_ne_tooDeep hcurly)

/-- A token without a step is refused with the types that are expected. -/
theorem verdictFrom_stuck {s : State} {t : Token} (h : s.step t.type = none) (ts : List Token) :
    verdictFrom room s lets (t :: ts) = .error (.unexpected s.wanted (t :: ts)) := by
  rw [verdictFrom, h]

/-- A token with a step is checked, and the rest is up to the next state. -/
theorem verdictFrom_cons {s s' : State} {t : Token} {type : TokenType} (ht : t.type = type)
    (hstep : s.step type = some s') (ts : List Token) :
    verdictFrom room s lets (t :: ts) =
      accept room s.opened lets t ts >>= fun lets => verdictFrom room s' lets ts := by
  rw [verdictFrom, ht, hstep]

theorem verdictFrom_letWord {t : Token} (ht : t.type = .letWord) (ts : List Token) :
    verdictFrom room ⟨.between, n⟩ lets (t :: ts) =
      verdictFrom room ⟨.afterLet, n⟩ (t.value :: lets) ts := by
  rw [verdictFrom_cons ht rfl]
  simp only [accept, ht]
  rfl

theorem verdictFrom_identifier {s s' : State} {t : Token} (ht : t.type = .identifier)
    (hstep : s.step .identifier = some s') (ts : List Token) :
    verdictFrom room s lets (t :: ts) =
      identifierOf t >>= fun _ => verdictFrom room s' lets ts := by
  rw [verdictFrom_cons ht hstep]
  simp only [accept, ht]
  cases identifierOf t <;> rfl

abbrev plainTypes : List TokenType :=
  [.assign, .functionWord, .leftParen, .rightParen]

theorem verdictFrom_plain {s s' : State} {t : Token} {type : TokenType} (ht : t.type = type)
    (hstep : s.step type = some s') (htype : type ∈ plainTypes) (ts : List Token) :
    verdictFrom room s lets (t :: ts) = verdictFrom room s' lets ts := by
  have haccept : accept room s.opened lets t ts = .ok lets := by
    subst ht
    unfold accept
    split <;> simp_all
  rw [verdictFrom_cons ht hstep, haccept]
  rfl

def Room.inside (room : Room) (opened : Nat) : Room :=
  room.map (· - opened)

-- A body may be opened if there is room left inside those that are open.
theorem verdictFrom_leftCurly {t : Token} (ht : t.type = .leftCurly) (ts : List Token) :
    verdictFrom room ⟨.afterParams, n⟩ lets (t :: ts) =
      (room.inside n).enter ts >>= fun _ => verdictFrom room ⟨.between, n + 1⟩ lets ts := by
  rw [verdictFrom_cons ht rfl]
  simp only [accept, ht]
  cases room with
  | none => rfl
  | some limit =>
    show ((if n < limit then _ else _) >>= _) = (Room.enter (some (limit - n)) ts >>= _)
    by_cases hlt : n < limit
    · rw [if_pos hlt, show limit - n = limit - n - 1 + 1 by omega]
      rfl
    · rw [if_neg hlt, show limit - n = 0 by omega]
      rfl

-- The end of a declaration is where the value of its `let` is checked.
theorem verdictFrom_rightCurly {t : Token} (ht : t.type = .rightCurly) (o : Opening)
    (body : List Declaration) (ts : List Token) :
    verdictFrom room ⟨.between, n + 1⟩ (o.letToken.value :: lets) (t :: ts) =
      o.close body t >>= fun _ => verdictFrom room ⟨.between, n⟩ lets ts := by
  rw [verdictFrom_cons ht rfl, Opening.close]
  simp only [accept, ht]
  cases o.letToken.value.bind Kind.ofName? <;> rfl

/-! ## Readers -/

/-- Where one type goes on that nothing but its place is checked of, the verdict starts with the
reader of a token of that type. -/
theorem verdictFrom_expect {s s' : State} {type : TokenType} (hstep : s.step type = some s')
    (hwanted : s.wanted = [type]) (htype : type ∈ plainTypes) {ts : List Token}
    (hother : s.place = .afterFunction → startsWith .identifier ts = false) :
    verdictFrom room s lets ts = expect type ts >>= fun t => verdictFrom room s' lets t.rest := by
  cases ts with
  | nil =>
    have hs : s ≠ .start := by
      rintro rfl
      cases hwanted
      simp at htype
    rw [verdictFrom, if_neg hs, hwanted, expect]
    rfl
  | cons t ts =>
    rw [expect]
    by_cases ht : t.type = type
    · rw [if_pos ht]
      exact verdictFrom_plain ht hstep htype ts
    · have hstuck : s.step t.type = none :=
        State.step_eq_none (by simpa [hwanted] using ht) fun h => of_decide_eq_false (hother h)
      rw [if_neg ht, verdictFrom_stuck hstuck, hwanted]
      rfl

/-- The verdict on an identifier is that of its reader. -/
theorem verdictFrom_binding (ts : List Token) :
    verdictFrom room ⟨.afterLet, n⟩ lets ts =
      identifier ts >>= fun i => verdictFrom room ⟨.afterBinding, n⟩ lets i.rest := by
  cases ts with
  | nil => rfl
  | cons t ts =>
    rw [identifier, expect]
    by_cases ht : t.type = .identifier
    · rw [if_pos ht, verdictFrom_identifier ht rfl]
      show _ = (identifierOf t >>= _) >>= _
      cases identifierOf t <;> rfl
    · have hstuck : State.step ⟨.afterLet, n⟩ t.type = none :=
        State.step_eq_none (by simp [State.wanted, ht]) (by simp)
      rw [if_neg ht, verdictFrom_stuck hstuck]
      rfl

theorem verdictFrom_functionName (ts : List Token) :
    verdictFrom room ⟨.afterFunction, n⟩ lets ts =
      functionName ts >>= fun name => expect .leftParen name.rest >>= fun lp =>
        verdictFrom room ⟨.inParams, n⟩ lets lp.rest := by
  rw [functionName]
  by_cases hname : startsWith .identifier ts = true
  · rw [if_pos hname]
    cases ts with
    | nil => cases hname
    | cons t ts =>
      have ht : t.type = .identifier := of_decide_eq_true hname
      rw [identifier, expect, if_pos ht, verdictFrom_identifier ht rfl,
        verdictFrom_expect (s := ⟨.afterName, n⟩) rfl rfl (by decide) (by simp)]
      show _ = ((identifierOf t >>= _) >>= _) >>= _
      cases identifierOf t <;> rfl
  · rw [if_neg hname]
    exact verdictFrom_expect rfl rfl (by decide) fun _ => by simpa using hname

/-- The verdict on parameters is that of their reader. -/
theorem verdictFrom_params (ts : List Token) :
    verdictFrom room ⟨.inParams, n⟩ lets ts =
      params ts >>= fun ps => verdictFrom room ⟨.afterParams, n⟩ lets ps.rest := by
  induction ts with
  | nil => rfl
  | cons t ts ih =>
    rw [params]
    by_cases hparen : t.type = .rightParen
    · rw [if_pos hparen, verdictFrom_plain hparen rfl (by decide)]
      rfl
    rw [if_neg hparen]
    by_cases hname : t.type = .identifier
    · rw [if_pos hname, verdictFrom_identifier hname rfl, ih]
      cases identifierOf t with
      | error e => rfl
      | ok i => cases params ts <;> rfl
    · have hstuck : State.step ⟨.inParams, n⟩ t.type = none :=
        State.step_eq_none (by simp [State.wanted, hname, hparen]) (by simp)
      rw [if_neg hname, verdictFrom_stuck hstuck]
      rfl

theorem verdictFrom_brace (ts : List Token) :
    verdictFrom room ⟨.afterParams, n⟩ lets ts =
      expect .leftCurly ts >>= fun b => (room.inside n).enter b.rest >>= fun _ =>
        verdictFrom room ⟨.between, n + 1⟩ lets b.rest := by
  cases ts with
  | nil => rfl
  | cons t ts =>
    rw [expect]
    by_cases ht : t.type = .leftCurly
    · rw [if_pos ht, verdictFrom_leftCurly ht]
      rfl
    · have hstuck : State.step ⟨.afterParams, n⟩ t.type = none :=
        State.step_eq_none (by simpa [State.wanted] using ht) (by simp)
      rw [if_neg ht, verdictFrom_stuck hstuck]
      rfl

/-- The verdict on an opening is that of its reader, once there is room for its body. -/
theorem verdictFrom_opening {ts : List Token} (hlet : startsWith .letWord ts = true) :
    verdictFrom room ⟨.between, n⟩ lets ts =
      opening ts >>= fun o => (room.inside n).enter o.rest >>= fun _ =>
        verdictFrom room ⟨.between, n + 1⟩ (o.value.letToken.value :: lets) o.rest := by
  cases ts with
  | nil => cases hlet
  | cons l ts =>
    have hl : l.type = .letWord := of_decide_eq_true hlet
    rw [opening, expect, if_pos hl, verdictFrom_letWord hl, verdictFrom_binding]
    show _ = (identifier ts >>= _) >>= _
    rw [bind_assoc]
    refine Except.bind_congr_ok fun id _ => ?_
    rw [verdictFrom_expect (s := ⟨.afterBinding, n⟩) rfl rfl (by decide) (by simp), bind_assoc]
    refine Except.bind_congr_ok fun a _ => ?_
    rw [verdictFrom_expect (s := ⟨.afterAssign, n⟩) rfl rfl (by decide) (by simp), bind_assoc]
    refine Except.bind_congr_ok fun f _ => ?_
    rw [verdictFrom_functionName, bind_assoc]
    refine Except.bind_congr_ok fun name _ => ?_
    rw [bind_assoc]
    refine Except.bind_congr_ok fun lp _ => ?_
    rw [verdictFrom_params, bind_assoc]
    refine Except.bind_congr_ok fun ps _ => ?_
    rw [verdictFrom_brace, bind_assoc]
    refine Except.bind_congr_ok fun b _ => ?_
    rfl

-- Inside a body, what is no declaration has to be the brace that closes the body.
theorem verdictFrom_closing {ts : List Token} (hlet : startsWith .letWord ts = false) (o : Opening)
    (body : List Declaration) :
    verdictFrom room ⟨.between, n + 1⟩ (o.letToken.value :: lets) ts =
      closing ts >>= fun brace => o.close body brace.value >>= fun _ =>
        verdictFrom room ⟨.between, n⟩ lets brace.rest := by
  cases ts with
  | nil => rfl
  | cons t ts =>
    rw [closing]
    by_cases ht : t.type = .rightCurly
    · rw [if_pos ht, verdictFrom_rightCurly ht o body]
      rfl
    · have hne : t.type ≠ .letWord := of_decide_eq_false hlet
      have hstuck : State.step ⟨.between, n + 1⟩ t.type = none :=
        State.step_eq_none (by simp [State.wanted, ht, hne]) (by simp)
      rw [if_neg ht, verdictFrom_stuck hstuck]
      rfl

theorem Room.enter_inside {inner : Room} {rest : List Token}
    (h : (room.inside n).enter rest = .ok inner) : inner = room.inside (n + 1) := by
  cases room with
  | none =>
    cases h
    rfl
  | some limit =>
    have henter : Room.enter (some (limit - n)) rest = .ok inner := h
    show inner = some (limit - (n + 1))
    cases hleft : limit - n with
    | zero =>
      rw [hleft] at henter
      cases henter
    | succ m =>
      rw [hleft] at henter
      cases henter
      rw [show limit - (n + 1) = m by omega]

/-- Between statements, the verdict starts with the reader of declarations. -/
theorem verdictFrom_declarations (n : Nat) (lets : List (Option String)) (ts : List Token) :
    verdictFrom room ⟨.between, n⟩ lets ts =
      declarations (room.inside n) ts >>= fun ds =>
        verdictFrom room ⟨.between, n⟩ lets ds.rest := by
  rw [declarations]
  split
  · next hlet =>
    -- Both sides take the same steps, so only what follows each of them is left to compare.
    rw [verdictFrom_opening hlet, bind_assoc]
    refine Except.bind_congr_ok fun o _ => ?_
    have holt := o.lt_bound
    rw [bind_assoc]
    refine Except.bind_congr_ok fun inner hinner => ?_
    rw [Room.enter_inside hinner, verdictFrom_declarations (n + 1), bind_assoc]
    refine Except.bind_congr_ok fun body hbody => ?_
    have hbodylt := body.lt_bound
    rw [verdictFrom_closing (declarations_ok hbody).1 o.value body.value, bind_assoc]
    refine Except.bind_congr_ok fun brace _ => ?_
    have hbracelt := brace.lt_bound
    rw [bind_assoc]
    refine Except.bind_congr_ok fun d _ => ?_
    rw [verdictFrom_declarations n, bind_assoc]
    rfl
  · rfl
termination_by ts.length
decreasing_by all_goals omega

/-- The parser accepts the tokens that get an accepting verdict, and reports the error of the
verdict on all others. -/
theorem program_bind_eq_verdict (room : Room) (ts : List Token) :
    (program room ts >>= fun _ => .ok ()) = verdict room ts := by
  have hinside : room.inside 0 = room := by cases room <;> rfl
  rw [verdict, State.start, verdictFrom_declarations, hinside, program, bind_assoc]
  refine Except.bind_congr_ok fun ds hds => ?_
  have hlet := (declarations_ok hds).1
  cases hrest : ds.rest with
  | nil => rfl
  | cons t rest =>
    rw [hrest] at hlet
    have hne : t.type ≠ .letWord := of_decide_eq_false hlet
    have hstuck : State.step ⟨.between, 0⟩ t.type = none :=
      State.step_eq_none (by simpa [State.wanted] using hne) (by simp)
    rw [verdictFrom_stuck hstuck]
    rfl

/-- The parser fails with the error of the verdict. -/
theorem program_eq_error_iff {ts : List Token} {e : ParseError} :
    program room ts = .error e ↔ verdict room ts = .error e := by
  rw [← program_bind_eq_verdict]
  cases program room ts <;> simp [bind, Except.bind]

/-- The parser succeeds where the verdict accepts. -/
theorem exists_program_eq_ok_iff {ts : List Token} :
    (∃ p, program room ts = .ok p) ↔ verdict room ts = .ok () := by
  rw [← program_bind_eq_verdict]
  cases program room ts <;> simp [bind, Except.bind]

end Parse

end LetFun
