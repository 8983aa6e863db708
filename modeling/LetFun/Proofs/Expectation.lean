import LetFun.Proofs.Location
/-!
# Which types are expected

The types that a syntax error lists are those that a program goes on with before the error, with one
exception: behind `function` a name may stand as well as a parenthesis, and only the parenthesis is
listed (`parse_expected_complete`).
-/

namespace LetFun

open Grammar

namespace Grammar.State

variable {s s' : State} {t : TokenType}

/-- The grammar goes on with the reported types, and after `function` with a name as well. -/
theorem isSome_step_iff :
    (s.step t).isSome ↔ t ∈ s.wanted ∨ s.place = .afterFunction ∧ t = .identifier := by
  constructor
  · intro h
    obtain ⟨s', hs'⟩ := Option.isSome_iff_exists.1 h
    exact mem_wanted_of_step hs'
  · rintro (h | ⟨hplace, rfl⟩)
    · exact isSome_step_of_mem_wanted h
    · obtain ⟨place, n⟩ := s
      subst hplace
      rfl

/-- Only the word `function` leads to the place behind it. -/
theorem place_eq_afterFunction_iff (h : s.step t = some s') :
    s'.place = .afterFunction ↔ t = .functionWord := by
  unfold step at h
  split at h <;> cases h <;> simp

-- The last type that was read tells whether a name may come next.
theorem place_eq_afterFunction_iff_of_run {q : List TokenType} (h : start.run q = some s) :
    s.place = .afterFunction ↔ q.getLast? = some .functionWord := by
  rcases List.eq_nil_or_concat q with rfl | ⟨front, t, rfl⟩
  · cases h
    simp [start]
  · rw [List.concat_eq_append, run_append] at h
    obtain ⟨u, _, h⟩ := Option.bind_eq_some_iff.1 h
    obtain ⟨s', hstep, hs'⟩ := Option.bind_eq_some_iff.1 h
    cases hs'
    rw [List.concat_eq_append, List.getLast?_concat, Option.some.injEq]
    exact place_eq_afterFunction_iff hstep

/-- Behind the word `function` a name is not among what is reported as expected. -/
theorem identifier_notMem_wanted (h : s.place = .afterFunction) : .identifier ∉ s.wanted := by
  obtain ⟨place, n⟩ := s
  subst h
  simp [wanted]

end Grammar.State

/-- A syntax error lists the types that a program goes on with behind the tokens before the error,
except that it leaves out the name of a function. So the list is complete unless the error is right
behind `function`. -/
theorem parse_expected_complete [CallStack] {ts rest : List Token} {expected : List TokenType}
    (h : parse ts = .error (.unexpected expected rest)) :
    ∃ q, ts = q ++ rest ∧ Viable (Token.types q) ∧
      (∀ t ∈ rest.head?, ¬ Viable (Token.types q ++ [t.type])) ∧
      ((∀ type, Viable (Token.types q ++ [type]) → type ∈ expected) ↔
        (Token.types q).getLast? ≠ some .functionWord) ∧
      ∀ type, Viable (Token.types q ++ [type]) ↔
        type ∈ expected ∨ (Token.types q).getLast? = some .functionWord ∧ type = .identifier := by
  obtain ⟨q, s, hts, hrun, rfl, hstuck, _⟩ :=
    Parse.unexpected_of_verdictFrom (Parse.program_eq_error_iff.1 h)
  -- The place behind `function` is the only one where not all types that may follow are listed.
  have hplace := State.place_eq_afterFunction_iff_of_run hrun
  have hviable : ∀ type, Viable (Token.types q ++ [type]) ↔
      type ∈ s.wanted ∨ (Token.types q).getLast? = some .functionWord ∧ type = .identifier := by
    intro type
    rw [viable_append_singleton_iff hrun, State.isSome_step_iff, hplace]
  refine ⟨q, hts, viable_iff_exists_run.2 ⟨s, hrun⟩, fun t ht => ?_, ⟨?_, ?_⟩, hviable⟩
  · rw [viable_append_singleton_iff hrun, hstuck t ht]
    exact Bool.false_ne_true
  · intro hcomplete hlast
    have hname := hcomplete .identifier ((hviable _).2 (.inr ⟨hlast, rfl⟩))
    exact State.identifier_notMem_wanted (hplace.2 hlast) hname
  · intro hlast type htype
    rcases (hviable type).1 htype with hmem | ⟨hfunction, _⟩
    · exact hmem
    · exact absurd hfunction hlast

/-- The tokens of `let a = function =`. -/
def unnamedTokens : List Token :=
  [⟨.letWord, some "let", 0, 3⟩, ⟨.identifier, some "a", 4, 5⟩, ⟨.assign, some "=", 6, 7⟩,
    ⟨.functionWord, some "function", 8, 16⟩, ⟨.assign, some "=", 17, 18⟩]

/-- Of the two types that may stand in place of the last `=` of `unnamedTokens`, one is listed; in
place of that of `misplacedTokens` both are. -/
theorem misplacedTokens_expected :
    (parse misplacedTokens =
        .error (.unexpected [.identifier, .rightParen] (misplacedTokens.drop 6)) ∧
      ∀ type, Viable (Token.types (misplacedTokens.take 6) ++ [type]) →
        type ∈ [TokenType.identifier, .rightParen]) ∧
    (parse unnamedTokens = .error (.unexpected [.leftParen] (unnamedTokens.drop 4)) ∧
      ∀ type, Viable (Token.types (unnamedTokens.take 4) ++ [type]) ↔
        type = .leftParen ∨ type = .identifier) := by
  have hmisplaced : parse misplacedTokens =
      .error (.unexpected [.identifier, .rightParen] (misplacedTokens.drop 6)) := by decide +kernel
  have hunnamed : parse unnamedTokens =
      .error (.unexpected [.leftParen] (unnamedTokens.drop 4)) := by decide +kernel
  refine ⟨⟨hmisplaced, ?_⟩, hunnamed, fun type => ?_⟩
  · obtain ⟨q, hq, _, _, hcomplete, _⟩ := parse_expected_complete hmisplaced
    obtain rfl : misplacedTokens.take 6 = q := List.append_cancel_right hq
    exact hcomplete.2 (by decide)
  · obtain ⟨q, hq, _, _, _, hviable⟩ := parse_expected_complete hunnamed
    obtain rfl : unnamedTokens.take 4 = q := List.append_cancel_right hq
    rw [hviable, List.mem_singleton]
    exact or_congr_right ⟨fun h => h.2, fun h => ⟨rfl, h⟩⟩

/-- Lists of expected types are not complete: one leaves out the name that may follow `function`. -/
theorem expected_not_complete :
    ¬ ∀ (ts q rest : List Token) (expected : List TokenType), (∀ t ∈ ts, t.IsValued) →
      NestedWithin CallStack.bodies (Token.types ts) →
      parse ts = .error (.unexpected expected rest) → ts = q ++ rest →
      ∀ type, Viable (Token.types q ++ [type]) → type ∈ expected := by
  intro h
  have hvalues : ∀ t ∈ unnamedTokens, t.IsValued := by decide
  have hnested : NestedWithin CallStack.bodies (Token.types unnamedTokens) :=
    nestedWithin_of_length_le (by decide)
  have hparse : parse unnamedTokens =
      .error (.unexpected [.leftParen] (unnamedTokens.drop 4)) := by decide +kernel
  have hname : Viable (Token.types (unnamedTokens.take 4) ++ [.identifier]) := by decide
  have hmem := h unnamedTokens (unnamedTokens.take 4) _ _ hvalues hnested hparse rfl _ hname
  exact absurd hmem (by decide)

end LetFun
