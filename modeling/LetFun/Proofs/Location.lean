import LetFun.Proofs.Verdict
/-!
# Where syntax errors are reported

An error is reported at the first token that no program goes on with, or at the end of tokens that
some program goes on from; and a program goes on there with every type that is reported as expected
(`parse_unexpected_located`).
-/

namespace LetFun

open Grammar

namespace Parse

variable {room : Room} {s : State} {lets : List (Option String)} {ts : List Token}

/-- A verdict because of a type: the grammar goes on over the tokens before the error, to a state
that does not go on with the next token, and the types that the state reports are expected. -/
theorem unexpected_of_verdictFrom {expected : List TokenType} {rest : List Token}
    (h : verdictFrom room s lets ts = .error (.unexpected expected rest)) :
    ∃ q s', ts = q ++ rest ∧ s.run (Token.types q) = some s' ∧ expected = s'.wanted ∧
      (∀ t ∈ rest.head?, s'.step t.type = none) ∧ (rest = [] → s' ≠ .start) := by
  induction ts generalizing s lets with
  | nil =>
    rw [verdictFrom] at h
    split at h
    · cases h
    · next hs =>
      cases h
      exact ⟨[], s, rfl, rfl, rfl, by simp, fun _ => hs⟩
  | cons t ts ih =>
    cases hstep : s.step t.type with
    | none =>
      rw [verdictFrom_stuck hstep] at h
      cases h
      refine ⟨[], s, rfl, rfl, rfl, fun u hu => ?_, by simp⟩
      cases hu
      exact hstep
    -- A token that fits is no reason to expect another one, so the error lies further on.
    | some next =>
      rw [verdictFrom_cons rfl hstep] at h
      rcases Except.bind_eq_error_iff.1 h with haccept | ⟨lets', _, h⟩
      · exact absurd haccept accept_ne_unexpected
      · obtain ⟨q, s', rfl, hrun, hrest⟩ := ih h
        refine ⟨t :: q, s', rfl, ?_, hrest⟩
        show s.run (t.type :: Token.types q) = some s'
        rw [State.run_cons, hstep]
        exact hrun

/-- Tokens at the front of accepted ones are accepted too, or end too early. -/
theorem verdictFrom_of_append {q rest : List Token}
    (h : verdictFrom room s lets (q ++ rest) = .ok ()) :
    verdictFrom room s lets q = .ok () ∨
      ∃ expected, verdictFrom room s lets q = .error (.unexpected expected []) := by
  induction q generalizing s lets with
  | nil =>
    rw [verdictFrom]
    split
    · exact .inl rfl
    · exact .inr ⟨s.wanted, rfl⟩
  | cons t q ih =>
    rw [List.cons_append] at h
    cases hstep : s.step t.type with
    | none =>
      rw [verdictFrom_stuck hstep] at h
      cases h
    | some next =>
      rw [verdictFrom_cons rfl hstep] at h ⊢
      obtain ⟨lets', haccept, h⟩ := Except.bind_eq_ok_iff.1 h
      rw [accept_ok_congr haccept]
      exact ih h

end Parse

/-- The tokens of `let a = function ( x =`, which cannot go on with the last of them. -/
def misplacedTokens : List Token :=
  [⟨.letWord, some "let", 0, 3⟩, ⟨.identifier, some "a", 4, 5⟩, ⟨.assign, none, 6, 7⟩,
    ⟨.functionWord, none, 8, 16⟩, ⟨.leftParen, none, 17, 18⟩, ⟨.identifier, some "x", 19, 20⟩,
    ⟨.assign, none, -4, 2⟩]

/-- The tokens of `let a = function ( ) { }`. -/
def wholeTokens : List Token :=
  [⟨.letWord, some "let", 0, 3⟩, ⟨.identifier, some "a", 4, 5⟩, ⟨.assign, none, 6, 7⟩,
    ⟨.functionWord, none, 8, 16⟩, ⟨.leftParen, none, 17, 18⟩, ⟨.rightParen, none, 19, 20⟩,
    ⟨.leftCurly, none, 21, 22⟩, ⟨.rightCurly, none, 23, 24⟩]

/-- A syntax error without a token is at the end of tokens that are a part of a program; one with a
token is at the first that no program goes on with. A program goes on before the error with each of
the expected types. So tokens cut off an accepted list are accepted or end too early. -/
theorem parse_unexpected_located [CallStack] (ts : List Token) :
    (∀ expected rest, parse ts = .error (.unexpected expected rest) →
      (ParseError.actual rest = none →
        ParseError.position rest = none ∧ Viable (Token.types ts) ∧ ¬ IsProgram (Token.types ts) ∧
          ∀ type ∈ expected, Viable (Token.types ts ++ [type])) ∧
      (∀ found, ParseError.actual rest = some found → ∃ k, ∃ h : k < ts.length,
        found = ts[k].type ∧ ParseError.position rest = some ts[k].start ∧
          Viable (Token.types (ts.take k)) ∧ ¬ Viable (Token.types (ts.take (k + 1))) ∧
          ∀ type ∈ expected, Viable (Token.types (ts.take k) ++ [type])) ∧
      expected ≠ []) ∧
    (∀ p n, parse ts = .ok p → (∃ p', parse (ts.take n) = .ok p') ∨
      ∃ expected, parse (ts.take n) = .error (.unexpected expected [])) := by
  constructor
  · intro expected rest h
    -- The tokens before the error lead to a state that has no step for the next one.
    obtain ⟨q, s, rfl, hrun, rfl, hrest, hend⟩ :=
      Parse.unexpected_of_verdictFrom (Parse.program_eq_error_iff.1 h)
    have hviable : Viable (Token.types q) := viable_iff_exists_run.2 ⟨s, hrun⟩
    have hwanted : ∀ type ∈ s.wanted, Viable (Token.types q ++ [type]) := fun type htype =>
      (viable_append_singleton_iff hrun).2 (State.isSome_step_of_mem_wanted htype)
    refine ⟨fun hactual => ?_, fun found hactual => ?_, s.wanted_ne_nil⟩
    · obtain rfl : rest = [] := by simpa [ParseError.actual] using hactual
      rw [List.append_nil]
      refine ⟨rfl, hviable, fun hprogram => hend rfl ?_, hwanted⟩
      have hstart := isProgram_iff_run.1 hprogram
      rw [hrun] at hstart
      exact Option.some.inj hstart
    · cases rest with
      | nil => cases hactual
      | cons t rest =>
        have hlt : q.length < (q ++ t :: rest).length := by simp
        have hget : (q ++ t :: rest)[q.length] = t := by simp
        have htake : (q ++ t :: rest).take (q.length + 1) = q ++ [t] :=
          List.take_length_add_append 1
        have hstuck : ¬ Viable (Token.types (q ++ [t])) := by
          rw [Token.types, List.map_append, List.map_singleton, viable_append_singleton_iff hrun,
            hrest t rfl]
          exact Bool.false_ne_true
        refine ⟨q.length, hlt, ?_⟩
        rw [hget, List.take_left, htake]
        exact ⟨(Option.some.inj hactual).symm, rfl, hviable, hstuck, hwanted⟩
  · intro p n h
    -- A part of accepted tokens is accepted itself, or ends too early.
    have haccepted : Parse.verdict (some CallStack.bodies) ts = .ok () :=
      Parse.exists_program_eq_ok_iff.1 ⟨p, h⟩
    rw [← List.take_append_drop n ts] at haccepted
    rcases Parse.verdictFrom_of_append haccepted with htake | ⟨expected, htake⟩
    · exact .inl (Parse.exists_program_eq_ok_iff.2 htake)
    · exact .inr ⟨expected, Parse.program_eq_error_iff.2 htake⟩

/-- The last `=` of `misplacedTokens` is reported with its own offset; without their last brace,
`wholeTokens` end too early. -/
theorem parse_unexpected_misplacedTokens :
    (parse misplacedTokens = .error (.unexpected [.identifier, .rightParen]
        [⟨.assign, none, -4, 2⟩]) ∧
      ∃ k, ∃ h : k < misplacedTokens.length, .assign = misplacedTokens[k].type ∧
        some (-4) = some misplacedTokens[k].start ∧
        Viable (Token.types (misplacedTokens.take k)) ∧
        ¬ Viable (Token.types (misplacedTokens.take (k + 1))) ∧
        ∀ type ∈ [TokenType.identifier, .rightParen],
          Viable (Token.types (misplacedTokens.take k) ++ [type])) ∧
    (parse wholeTokens.dropLast = .error (.unexpected [.letWord, .rightCurly] []) ∧
      Viable (Token.types wholeTokens.dropLast) ∧ ¬ IsProgram (Token.types wholeTokens.dropLast) ∧
      ∀ type ∈ [TokenType.letWord, .rightCurly],
        Viable (Token.types wholeTokens.dropLast ++ [type])) ∧
    ((∃ p, parse (wholeTokens.take 7) = .ok p) ∨
      ∃ expected, parse (wholeTokens.take 7) = .error (.unexpected expected [])) := by
  have hmisplaced : parse misplacedTokens = .error (.unexpected [.identifier, .rightParen]
      [⟨.assign, none, -4, 2⟩]) := by decide +kernel
  have hcut : parse wholeTokens.dropLast = .error (.unexpected [.letWord, .rightCurly] []) := by
    decide +kernel
  have hwhole : parse wholeTokens = .ok ⟨⟨0, 24⟩, [⟨⟨0, 24⟩, .letKind, [⟨⟨0, 24⟩, ⟨⟨4, 5⟩, "a"⟩,
      ⟨⟨8, 24⟩, none, [], ⟨⟨21, 24⟩, []⟩⟩⟩]⟩]⟩ := by decide +kernel
  refine ⟨⟨hmisplaced, ?_⟩, ⟨hcut, ?_⟩, ?_⟩
  · exact ((parse_unexpected_located misplacedTokens).1 _ _ hmisplaced).2.1 .assign rfl
  · exact (((parse_unexpected_located wholeTokens.dropLast).1 _ _ hcut).1 rfl).2
  · exact (parse_unexpected_located wholeTokens).2 _ 7 hwhole

end LetFun
