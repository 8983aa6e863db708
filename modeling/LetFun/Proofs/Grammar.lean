import LetFun.Token
/-!
# The grammar of declarations

The grammar as a relation on lists of token types, apart from any reader:

    program   = statement*
    statement = let identifier assign function identifier? ( identifier* ) { statement* }

A list of types is *viable* if some program starts with it, and *nested within* a limit if no
viable list that it starts with has more bodies open than the limit.
-/

namespace LetFun.Grammar

mutual

/-- A declaration of a function, perhaps named, with any number of parameters. -/
inductive IsStatement : List TokenType → Prop where
  | intro {name params body : List TokenType} (hname : name = [] ∨ name = [.identifier])
      (hparams : ∀ t ∈ params, t = .identifier) (hbody : IsProgram body) :
      IsStatement (.letWord :: .identifier :: .assign :: .functionWord ::
        (name ++ .leftParen :: (params ++ .rightParen :: .leftCurly :: (body ++ [.rightCurly]))))

inductive IsProgram : List TokenType → Prop where
  | nil : IsProgram []
  | cons {s rest : List TokenType} (hs : IsStatement s) (hrest : IsProgram rest) :
      IsProgram (s ++ rest)

end

/-- What comes before the body of a function: everything up to its opening brace. -/
inductive IsOpening : List TokenType → Prop where
  | intro {name params : List TokenType} (hname : name = [] ∨ name = [.identifier])
      (hparams : ∀ t ∈ params, t = .identifier) :
      IsOpening (.letWord :: .identifier :: .assign :: .functionWord ::
        (name ++ .leftParen :: (params ++ [.rightParen, .leftCurly])))

theorem isStatement_iff {s : List TokenType} :
    IsStatement s ↔ ∃ o body, IsOpening o ∧ IsProgram body ∧ s = o ++ body ++ [.rightCurly] := by
  constructor
  · intro h
    cases h with
    | intro hname hparams hbody => exact ⟨_, _, .intro hname hparams, hbody, by simp⟩
  · rintro ⟨o, body, ho, hbody, rfl⟩
    cases ho with
    | intro hname hparams => simpa using IsStatement.intro hname hparams hbody

/-- A program that is not empty starts with an opening, its body and the brace that closes it. -/
theorem isProgram_cons {o body rest : List TokenType} (ho : IsOpening o) (hbody : IsProgram body)
    (hrest : IsProgram rest) : IsProgram (o ++ (body ++ .rightCurly :: rest)) := by
  have hs : IsStatement (o ++ body ++ [.rightCurly]) :=
    isStatement_iff.2 ⟨o, body, ho, hbody, rfl⟩
  simpa using IsProgram.cons hs hrest

/-- Induction over a program whose statements are seen as openings and bodies. -/
@[elab_as_elim]
theorem IsProgram.induction {motive : (ts : List TokenType) → IsProgram ts → Prop}
    (nil : motive [] .nil)
    (cons : ∀ {o body rest : List TokenType} (ho : IsOpening o) (hbody : IsProgram body)
      (hrest : IsProgram rest), motive body hbody → motive rest hrest →
      motive (o ++ (body ++ .rightCurly :: rest)) (isProgram_cons ho hbody hrest))
    {ts : List TokenType} (h : IsProgram ts) : motive ts h := by
  refine @IsProgram.rec (fun s _ => ∃ o body, IsOpening o ∧
    (∃ hbody : IsProgram body, motive body hbody) ∧ s = o ++ body ++ [.rightCurly])
    motive ?intro nil ?cons ts h
  case intro =>
    intro name params body hname hparams hbody ih
    exact ⟨_, body, .intro hname hparams, ⟨hbody, ih⟩, by simp⟩
  case cons =>
    rintro s rest - hrest ⟨o, body, ho, ⟨hbody, ihbody⟩, rfl⟩ ihrest
    simpa using cons ho hbody hrest ihbody ihrest

/-- Two programs in a row are one. -/
theorem IsProgram.append {ts us : List TokenType} (hts : IsProgram ts) (hus : IsProgram us) :
    IsProgram (ts ++ us) := by
  induction hts using IsProgram.induction with
  | nil => exact hus
  | cons ho hbody _ _ ih => simpa using isProgram_cons ho hbody ih

/-! ## Nesting -/

/-- Some program starts with these types. -/
def Viable (ts : List TokenType) : Prop :=
  ∃ rest, IsProgram (ts ++ rest)

def openBodies (ts : List TokenType) : Nat :=
  ts.count .leftCurly - ts.count .rightCurly

/-- However far a list follows the grammar, at most `limit` bodies are open at once. -/
def NestedWithin (limit : Nat) (ts : List TokenType) : Prop :=
  ∀ q, q <+: ts → Viable q → openBodies q ≤ limit

/-- There are never more bodies open than there have been types. -/
theorem nestedWithin_of_length_le {limit : Nat} {ts : List TokenType} (h : ts.length ≤ limit) :
    NestedWithin limit ts := by
  intro q hq _
  calc openBodies q ≤ q.count .leftCurly := Nat.sub_le _ _
    _ ≤ q.length := List.count_le_length
    _ ≤ ts.length := hq.length_le
    _ ≤ limit := h

/-- A whole program is the start of one. -/
theorem IsProgram.viable {ts : List TokenType} (h : IsProgram ts) : Viable ts :=
  ⟨[], by simpa using h⟩

theorem IsOpening.count_leftCurly {o : List TokenType} (h : IsOpening o) :
    o.count .leftCurly = 1 := by
  obtain ⟨hname, hparams⟩ := h
  rename_i name params
  have hp : params.count .leftCurly = 0 :=
    List.count_eq_zero.2 fun hmem => absurd (hparams _ hmem) (by decide)
  rcases hname with rfl | rfl <;> simp [hp]

theorem IsOpening.count_rightCurly {o : List TokenType} (h : IsOpening o) :
    o.count .rightCurly = 0 := by
  obtain ⟨hname, hparams⟩ := h
  rename_i name params
  have hp : params.count .rightCurly = 0 :=
    List.count_eq_zero.2 fun hmem => absurd (hparams _ hmem) (by decide)
  rcases hname with rfl | rfl <;> simp [hp]

-- A program closes every body that it opens.
theorem IsProgram.count_eq {ts : List TokenType} (h : IsProgram ts) :
    ts.count .leftCurly = ts.count .rightCurly := by
  induction h using IsProgram.induction with
  | nil => rfl
  | cons ho _ _ ihbody ihrest =>
    simp [ho.count_leftCurly, ho.count_rightCurly, ihbody, ihrest]
    omega

/-- An opening alone can be completed to a program. -/
theorem IsOpening.viable {o : List TokenType} (h : IsOpening o) : Viable o :=
  ⟨[.rightCurly], by simpa using isProgram_cons h .nil .nil⟩

/-- An opening opens one body. -/
theorem IsOpening.openBodies_eq {o : List TokenType} (h : IsOpening o) : openBodies o = 1 := by
  rw [openBodies, h.count_leftCurly, h.count_rightCurly]

/-- A list that is viable inside a body is viable after the opening of the body. -/
theorem Viable.inside {o q : List TokenType} (ho : IsOpening o) (hq : Viable q) :
    Viable (o ++ q) := by
  obtain ⟨rest, h⟩ := hq
  exact ⟨rest ++ [.rightCurly], by simpa using isProgram_cons ho h .nil⟩

/-- A viable list stays viable after a whole program. -/
theorem Viable.after {ts q : List TokenType} (hts : IsProgram ts) (hq : Viable q) :
    Viable (ts ++ q) := by
  obtain ⟨rest, h⟩ := hq
  exact ⟨rest, by simpa using hts.append h⟩

/-- Inside a body one more body is open, as long as the list is not about to leave it. -/
theorem lt_openBodies_inside {o q : List TokenType} {n : Nat} (ho : IsOpening o)
    (h : n < openBodies q) : n + 1 < openBodies (o ++ q) := by
  rw [openBodies] at h
  rw [openBodies, List.count_append, List.count_append, ho.count_leftCurly, ho.count_rightCurly]
  omega

/-- A whole program leaves no bodies open. -/
theorem openBodies_after {ts : List TokenType} (hts : IsProgram ts) (q : List TokenType) :
    openBodies (ts ++ q) = openBodies q := by
  rw [openBodies, openBodies, List.count_append, List.count_append, hts.count_eq]
  omega

end LetFun.Grammar
