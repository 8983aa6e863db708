import LetFun.Proofs.Refusal
/-!
# The parser and the grammar

The parser accepts exactly the grammar (`parse_accepts_iff_isProgram`), and the tree that it returns
is the only one that its tokens spell (`parse_spelledBy_and_unique`).
-/

namespace LetFun

open Grammar

/-- The tokens of `const a = function f(x) {let b = function() {}}`, with offsets that come from no
text and no value where none is needed. -/
def nestedTokens : List Token :=
  [⟨.letWord, some "const", -7, 3⟩, ⟨.identifier, some "a", 9, 2⟩, ⟨.assign, none, 0, 0⟩,
    ⟨.functionWord, none, 40, 1⟩, ⟨.identifier, some "f", 5, 5⟩, ⟨.leftParen, none, 1, 1⟩,
    ⟨.identifier, some "x", 8, -8⟩, ⟨.rightParen, none, 2, 2⟩, ⟨.leftCurly, none, 6, 4⟩,
    ⟨.letWord, some "let", 30, 31⟩, ⟨.identifier, some "b", 1, 0⟩, ⟨.assign, none, 0, 0⟩,
    ⟨.functionWord, none, 12, 1⟩, ⟨.leftParen, none, 1, 1⟩, ⟨.rightParen, none, 2, 2⟩,
    ⟨.leftCurly, none, 13, 4⟩, ⟨.rightCurly, none, 0, 77⟩, ⟨.rightCurly, none, 0, -5⟩]

def nestedProgram : Program :=
  ⟨⟨0, -5⟩, [⟨⟨-7, -5⟩, .constKind, [⟨⟨-7, -5⟩, ⟨⟨9, 2⟩, "a"⟩, ⟨⟨40, -5⟩, some ⟨⟨5, 5⟩, "f"⟩,
    [⟨⟨8, -8⟩, "x"⟩], ⟨⟨6, -5⟩, [⟨⟨30, 77⟩, .letKind, [⟨⟨30, 77⟩, ⟨⟨1, 0⟩, "b"⟩,
      ⟨⟨12, 77⟩, none, [], ⟨⟨13, 77⟩, []⟩⟩⟩]⟩]⟩⟩⟩]⟩]⟩

/-- The parser accepts exactly the token lists whose types are a program, and refuses all others
because of the type of a token. -/
theorem parse_accepts_iff_isProgram [CallStack] (ts : List Token) (hvalues : ∀ t ∈ ts, t.IsValued)
    (hnested : NestedWithin CallStack.bodies (Token.types ts)) :
    ((∃ p, parse ts = .ok p) ↔ IsProgram (Token.types ts)) ∧
      (¬ IsProgram (Token.types ts) →
        ∃ expected rest, parse ts = .error (.unexpected expected rest)) := by
  have hiff : (∃ p, parse ts = .ok p) ↔ IsProgram (Token.types ts) := by
    rw [parse, Parse.program_eq_unbounded hnested]
    constructor
    · rintro ⟨p, hp⟩
      exact Parse.isProgram_of_allSpelledBy (Parse.program_eq_ok_iff.1 hp).1.body
    · intro h
      obtain ⟨ds, hds⟩ := Parse.exists_allSpelledBy h hvalues
      exact ⟨Parse.programOf ds, Parse.program_eq_ok_iff.2
        ⟨Parse.spelledBy_iff_eq_programOf.2 ⟨hds, rfl⟩, trivial⟩⟩
  refine ⟨hiff, fun hnot => ?_⟩
  cases hparse : parse ts with
  | ok p => exact absurd (hiff.1 ⟨p, hparse⟩) hnot
  | error e =>
    -- All values fit and there is room, so a token of a wrong type is all that is left.
    rcases Parse.program_error hparse with hmisfit | ⟨_, -, -, hcrowded⟩
    · obtain ⟨expected, rest, rfl⟩ := Parse.exists_unexpected hvalues hmisfit
      exact ⟨expected, rest, rfl⟩
    · exact absurd hcrowded (Parse.not_crowded_of_nestedWithin hnested)

/-- The nested declarations are accepted, and refused without the last brace. -/
theorem parse_accepts_nestedTokens :
    (∀ t ∈ nestedTokens, t.IsValued) ∧ NestedWithin CallStack.bodies (Token.types nestedTokens) ∧
      IsProgram (Token.types nestedTokens) ∧ ¬ IsProgram (Token.types nestedTokens.dropLast) := by
  have hvalues : ∀ t ∈ nestedTokens, t.IsValued := by decide
  have hnested : NestedWithin CallStack.bodies (Token.types nestedTokens) :=
    nestedWithin_of_length_le (by decide)
  have haccepted : parse nestedTokens = .ok nestedProgram := by decide +kernel
  have hrefused : parse nestedTokens.dropLast =
      .error (.unexpected [.letWord, .rightCurly] []) := by decide +kernel
  refine ⟨hvalues, hnested,
    (parse_accepts_iff_isProgram nestedTokens hvalues hnested).1.1 ⟨_, haccepted⟩, fun h => ?_⟩
  obtain ⟨p, hp⟩ := (parse_accepts_iff_isProgram nestedTokens.dropLast (by decide)
    (nestedWithin_of_length_le (by decide))).1.2 h
  rw [hrefused] at hp
  cases hp

/-- The tree of accepted tokens is spelled by them, and it is the only tree that is. -/
theorem parse_spelledBy_and_unique [CallStack] {ts : List Token} {p : Program}
    (h : parse ts = .ok p) :
    p.SpelledBy ts ∧ ∀ p' : Program, p'.SpelledBy ts → p' = p := by
  have hp := (Parse.program_eq_ok_iff.1 h).1
  exact ⟨hp, fun p' hp' => Parse.spelledBy_unique hp' hp⟩

theorem nestedProgram_spelledBy_and_unique :
    parse nestedTokens = .ok nestedProgram ∧ nestedProgram.SpelledBy nestedTokens ∧
      ∀ p' : Program, p'.SpelledBy nestedTokens → p' = nestedProgram := by
  have haccepted : parse nestedTokens = .ok nestedProgram := by decide +kernel
  exact ⟨haccepted, parse_spelledBy_and_unique haccepted⟩

end LetFun
