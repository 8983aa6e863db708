import LetFun.Proofs.Grammar
import Mathlib.Data.List.Induction
/-!
# Following the grammar one type at a time

A state says which part of a statement has been read and how many bodies are open. A list of types
takes the start to some state exactly if it is viable (`viable_iff_exists_run`), and back to the
start exactly if it is a program (`isProgram_iff_run`); so both can be decided.
-/

namespace LetFun.Grammar

/-- The places between the types of a statement, named for what stands before them. -/
inductive Place where
  | between
  | afterLet
  | afterBinding
  | afterAssign
  | afterFunction
  | afterName
  | inParams
  | afterParams
deriving DecidableEq, Repr

structure State where
  place : Place
  opened : Nat
deriving DecidableEq, Repr

namespace State

def start : State := ⟨.between, 0⟩

/-- The state after one more type, if the grammar has it there. -/
def step : State → TokenType → Option State
  | ⟨.between, n⟩, .letWord => some ⟨.afterLet, n⟩
  | ⟨.between, n + 1⟩, .rightCurly => some ⟨.between, n⟩
  | ⟨.afterLet, n⟩, .identifier => some ⟨.afterBinding, n⟩
  | ⟨.afterBinding, n⟩, .assign => some ⟨.afterAssign, n⟩
  | ⟨.afterAssign, n⟩, .functionWord => some ⟨.afterFunction, n⟩
  | ⟨.afterFunction, n⟩, .identifier => some ⟨.afterName, n⟩
  | ⟨.afterFunction, n⟩, .leftParen => some ⟨.inParams, n⟩
  | ⟨.afterName, n⟩, .leftParen => some ⟨.inParams, n⟩
  | ⟨.inParams, n⟩, .identifier => some ⟨.inParams, n⟩
  | ⟨.inParams, n⟩, .rightParen => some ⟨.afterParams, n⟩
  | ⟨.afterParams, n⟩, .leftCurly => some ⟨.between, n + 1⟩
  | _, _ => none

def run (s : State) (ts : List TokenType) : Option State :=
  ts.foldlM step s

@[simp] theorem run_nil (s : State) : s.run [] = some s := rfl

@[simp] theorem run_cons (s : State) (t : TokenType) (ts : List TokenType) :
    s.run (t :: ts) = (s.step t).bind (·.run ts) :=
  List.foldlM_cons

theorem run_append (s : State) (ts us : List TokenType) :
    s.run (ts ++ us) = (s.run ts).bind (·.run us) :=
  List.foldlM_append

/-! ## Runs over statements -/

theorem run_params {params : List TokenType} (h : ∀ t ∈ params, t = .identifier) (n : Nat) :
    (⟨.inParams, n⟩ : State).run params = some ⟨.inParams, n⟩ := by
  induction params with
  | nil => rfl
  | cons t params ih =>
    rw [List.forall_mem_cons] at h
    rw [run_cons, h.1]
    exact ih h.2

/-- An opening leads from between two statements to between two statements, one body further in. -/
theorem run_opening {o : List TokenType} (h : IsOpening o) (n : Nat) :
    (⟨.between, n⟩ : State).run o = some ⟨.between, n + 1⟩ := by
  obtain ⟨hname, hparams⟩ := h
  rename_i name params
  have htail : (⟨.inParams, n⟩ : State).run (params ++ [.rightParen, .leftCurly]) =
      some ⟨.between, n + 1⟩ := by
    rw [run_append, run_params hparams]
    rfl
  rcases hname with rfl | rfl <;> exact htail

-- A program leaves the state as it was.
theorem run_program {ts : List TokenType} (h : IsProgram ts) (n : Nat) :
    (⟨.between, n⟩ : State).run ts = some ⟨.between, n⟩ := by
  induction h using IsProgram.induction generalizing n with
  | nil => rfl
  | @cons o body rest ho _ _ ihbody ihrest =>
    rw [run_append, run_opening ho, Option.bind_some, run_append, ihbody, Option.bind_some,
      run_cons]
    exact ihrest n

/-- Every brace changes the number of open bodies by one. -/
theorem opened_of_step {s s' : State} {t : TokenType} (h : s.step t = some s') :
    s.opened + [t].count .leftCurly = s'.opened + [t].count .rightCurly := by
  unfold step at h
  split at h <;> cases h <;> rfl

/-- The number of open bodies is what the braces say. -/
theorem opened_of_run {s s' : State} {ts : List TokenType} (h : s.run ts = some s') :
    s.opened + ts.count .leftCurly = s'.opened + ts.count .rightCurly := by
  induction ts generalizing s with
  | nil =>
    cases h
    rfl
  | cons t ts ih =>
    rw [run_cons] at h
    obtain ⟨u, hu, h⟩ := Option.bind_eq_some_iff.1 h
    have hstep := opened_of_step hu
    have hrun := ih h
    rw [← List.singleton_append, List.count_append, List.count_append]
    omega

end State

/-! ## What a state has read -/

def Place.Read : Place → List TokenType → Prop
  | .between, q => q = []
  | .afterLet, q => q = [.letWord]
  | .afterBinding, q => q = [.letWord, .identifier]
  | .afterAssign, q => q = [.letWord, .identifier, .assign]
  | .afterFunction, q => q = [.letWord, .identifier, .assign, .functionWord]
  | .afterName, q => q = [.letWord, .identifier, .assign, .functionWord, .identifier]
  | .inParams, q => ∃ name params, (name = [] ∨ name = [.identifier]) ∧
      (∀ t ∈ params, t = .identifier) ∧
      q = .letWord :: .identifier :: .assign :: .functionWord :: (name ++ .leftParen :: params)
  | .afterParams, q => IsOpening (q ++ [.leftCurly])

/-- Whole statements, inside a number of bodies that are open. -/
inductive Inside : Nat → List TokenType → Prop where
  | top {ts : List TokenType} (h : IsProgram ts) : Inside 0 ts
  | body {n : Nat} {ts o body : List TokenType} (h : Inside n ts) (ho : IsOpening o)
      (hbody : IsProgram body) : Inside (n + 1) (ts ++ (o ++ body))

/-- Statements may follow inside an open body. -/
theorem Inside.append {n : Nat} {ts us : List TokenType} (h : Inside n ts) (hus : IsProgram us) :
    Inside n (ts ++ us) := by
  cases h with
  | top h => exact .top (h.append hus)
  | body h ho hbody => simpa using Inside.body h ho (hbody.append hus)

-- A brace closes the innermost body, and what was its statement is whole.
theorem Inside.close {n : Nat} {ts : List TokenType} (h : Inside (n + 1) ts) :
    Inside n (ts ++ [.rightCurly]) := by
  cases h with
  | body h ho hbody => simpa using h.append (isProgram_cons ho hbody .nil)

/-- What starts the start of a program starts a program. -/
theorem Viable.of_append {ts us : List TokenType} (h : Viable (ts ++ us)) : Viable ts := by
  obtain ⟨rest, h⟩ := h
  exact ⟨us ++ rest, by simpa using h⟩

/-- Inside open bodies anything may start that may start a program. -/
theorem Inside.viable_append {n : Nat} {ts q : List TokenType} (h : Inside n ts)
    (hq : Viable q) : Viable (ts ++ q) := by
  induction h generalizing q with
  | top h => exact hq.after h
  | body _ ho hbody ih => simpa using ih ((hq.after hbody).inside ho)

theorem Viable.of_prefix {ts us : List TokenType} (hus : Viable us) (h : ts <+: us) :
    Viable ts := by
  obtain ⟨more, rfl⟩ := h
  exact hus.of_append

/-- Every part of an opening starts a program. -/
theorem Place.Read.viable {place : Place} {q : List TokenType} (h : place.Read q) : Viable q := by
  have hparams : ∀ t ∈ ([] : List TokenType), t = .identifier := fun _ h => (nomatch h)
  have hnamed : Viable [.letWord, .identifier, .assign, .functionWord, .identifier, .leftParen,
      .rightParen, .leftCurly] := (IsOpening.intro (.inr rfl) hparams).viable
  cases place with
  | between => exact h ▸ IsProgram.nil.viable
  | afterLet => exact h ▸ hnamed.of_prefix (List.prefix_append [_] _)
  | afterBinding => exact h ▸ hnamed.of_prefix (List.prefix_append [_, _] _)
  | afterAssign => exact h ▸ hnamed.of_prefix (List.prefix_append [_, _, _] _)
  | afterFunction => exact h ▸ hnamed.of_prefix (List.prefix_append [_, _, _, _] _)
  | afterName => exact h ▸ hnamed.of_prefix (List.prefix_append [_, _, _, _, _] _)
  | inParams =>
    obtain ⟨name, params, hname, hparams, rfl⟩ := h
    refine (IsOpening.intro hname hparams).viable.of_prefix ⟨[.rightParen, .leftCurly], ?_⟩
    simp
  | afterParams => exact (IsOpening.viable h).of_append

/-- Types that were read up to a state: whole statements and a part of an opening. -/
def State.HasRead (s : State) (ts : List TokenType) : Prop :=
  ∃ before q, Inside s.opened before ∧ s.place.Read q ∧ ts = before ++ q

theorem State.HasRead.viable {s : State} {ts : List TokenType} (h : s.HasRead ts) : Viable ts := by
  obtain ⟨before, q, hbefore, hq, rfl⟩ := h
  exact hbefore.viable_append hq.viable

/-- Each step reads one more type as the grammar has it. -/
theorem State.HasRead.step {s s' : State} {ts : List TokenType} {t : TokenType} (h : s.HasRead ts)
    (hstep : s.step t = some s') : s'.HasRead (ts ++ [t]) := by
  obtain ⟨before, q, hbefore, hq, rfl⟩ := h
  -- Only braces end what was read of an opening; every other type is added to it.
  have extend {place : Place} {u : TokenType} (hread : place.Read (q ++ [u])) :
      State.HasRead ⟨place, s.opened⟩ (before ++ q ++ [u]) :=
    ⟨before, q ++ [u], hbefore, hread, List.append_assoc ..⟩
  unfold State.step at hstep
  split at hstep <;> cases hstep
  case h_2 =>
    rw [show q = [] from hq, List.append_nil]
    exact ⟨_, [], hbefore.close, rfl, (List.append_nil _).symm⟩
  case h_11 => exact ⟨_, [], .body hbefore hq .nil, rfl, by simp⟩
  case h_7 => exact extend ⟨[], [], .inl rfl, by simp, by rw [show q = _ from hq]; rfl⟩
  case h_8 => exact extend ⟨[.identifier], [], .inr rfl, by simp, by rw [show q = _ from hq]; rfl⟩
  case h_9 =>
    obtain ⟨name, params, hname, hparams, rfl⟩ := hq
    refine extend ⟨name, params ++ [.identifier], hname, ?_, by simp⟩
    simpa [or_imp, forall_and] using hparams
  case h_10 =>
    obtain ⟨name, params, hname, hparams, rfl⟩ := hq
    exact extend (by simpa [Place.Read] using IsOpening.intro hname hparams)
  all_goals exact extend (congrArg (· ++ _) hq)

/-- A run has read the types that led to its state, by induction from the right. -/
theorem State.hasRead_of_run {s : State} {ts : List TokenType} (h : start.run ts = some s) :
    s.HasRead ts := by
  induction ts using List.reverseRecOn generalizing s with
  | nil =>
    cases h
    exact ⟨[], [], .top .nil, rfl, rfl⟩
  | append_singleton ts t ih =>
    rw [run_append] at h
    obtain ⟨u, hu, h⟩ := Option.bind_eq_some_iff.1 h
    rw [run_cons] at h
    obtain ⟨v, hv, h⟩ := Option.bind_eq_some_iff.1 h
    cases h
    exact (ih hu).step hv

/-! ## Deciding the grammar -/

/-- Types start a program if the grammar has them all in their places. -/
theorem viable_iff_exists_run {ts : List TokenType} :
    Viable ts ↔ ∃ s, State.start.run ts = some s := by
  constructor
  · rintro ⟨rest, h⟩
    have hrun : State.start.run (ts ++ rest) = some State.start := State.run_program h 0
    rw [State.run_append] at hrun
    obtain ⟨s, hs, _⟩ := Option.bind_eq_some_iff.1 hrun
    exact ⟨s, hs⟩
  · rintro ⟨s, h⟩
    exact (State.hasRead_of_run h).viable

/-- Types are a program if they lead back to between two statements with no body open. -/
theorem isProgram_iff_run {ts : List TokenType} :
    IsProgram ts ↔ State.start.run ts = some State.start := by
  constructor
  · exact fun h => State.run_program h 0
  · intro h
    obtain ⟨before, q, hbefore, hq, rfl⟩ := State.hasRead_of_run h
    cases hbefore with
    | top hprogram => rwa [show q = [] from hq, List.append_nil]

instance (ts : List TokenType) : Decidable (Viable ts) :=
  decidable_of_iff (State.start.run ts).isSome (Option.isSome_iff_exists.trans
    viable_iff_exists_run.symm)

instance (ts : List TokenType) : Decidable (IsProgram ts) :=
  decidable_of_iff (State.start.run ts = some State.start) isProgram_iff_run.symm

/-- What may come next is what the grammar has a step for. -/
theorem viable_append_singleton_iff {ts : List TokenType} {s : State} {t : TokenType}
    (h : State.start.run ts = some s) : Viable (ts ++ [t]) ↔ (s.step t).isSome := by
  rw [viable_iff_exists_run, State.run_append, h, Option.bind_some, State.run_cons,
    Option.isSome_iff_exists]
  simp

end LetFun.Grammar
