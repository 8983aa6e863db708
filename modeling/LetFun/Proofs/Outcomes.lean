import LetFun.Proofs.Layout
import LetFun.Proofs.Refusal
import LetFun.Proofs.Tokenization
/-!
# What comes of a source text

Parsing a source text returns a program, or fails because of a character, of a token or of the depth
of nesting (`parseSource_outcome`). It never fails because of the value of a token, since every
token of a text has a value that its type needs (`Laid.isValued`).
-/

namespace LetFun

variable {strict : Bool} {ts : List Token} {source : String}

def Token.OccursIn (type : TokenType) (pos : Int) (ts : List Token) : Prop :=
  ∃ t ∈ ts, t.type = type ∧ t.start = pos

/-- The errors that parsing of a text may end with. A character is an error only to strict parsing,
and nesting if the tokens have more bodies open than there is room for. A syntax error says that the
text ends too early, or names a token of the text by its type and its place. Invalid nodes do not
come up. -/
def SourceError.Arises [CallStack] (source : String) (strict : Bool) : SourceError → Prop
  | .character _ => strict = true
  | .grammar (.tooDeep _) =>
    ∃ ts, tokenize source false = .ok ts ∧ Parse.Crowded (some CallStack.bodies) (Token.types ts)
  | .grammar (.unexpected _ rest) =>
    (ParseError.actual rest = none ∧ ParseError.position rest = none) ∨
      ∃ found pos ts, ParseError.actual rest = some found ∧ ParseError.position rest = some pos ∧
        0 ≤ pos ∧ pos < source.length ∧ tokenize source false = .ok ts ∧
        Token.OccursIn found pos ts
  | .grammar (.invalid _) => False

/-! ## Tokens of a text -/

-- A word `let` spells the kind of that name.
theorem Token.WrittenAs.isValued {t : Token} {pos : Nat} {w : List Char} (h : t.WrittenAs pos w) :
    t.IsValued := by
  constructor
  · intro _
    exact ⟨String.ofList w, h.value⟩
  · intro ht
    have hw : w = ['l', 'e', 't'] := by
      have hwrites := h.writes
      rwa [ht] at hwrites
    refine ⟨.letKind, ?_⟩
    rw [h.value, hw]
    rfl

/-- Scanned tokens have the values that they need. -/
theorem LaidFrom.isValued {pos : Nat} {cs : List Char} (h : LaidFrom strict pos ts cs) :
    ∀ t ∈ ts, t.IsValued := by
  induction h with
  | nil => exact fun _ h => (nomatch h)
  | cons ht _ _ _ ih => exact List.forall_mem_cons.2 ⟨ht.isValued, ih⟩

theorem Laid.isValued (h : Laid strict ts source) : ∀ t ∈ ts, t.IsValued := by
  obtain ⟨_, _, -, -, h⟩ := h
  exact h.isValued

/-- Scanning that is not strict accepts every text. -/
theorem exists_tokenize (source : String) : ∃ ts, tokenize source false = .ok ts :=
  Token.exists_scanFrom 0 [] source.toList

-- Strict scanning finds the same tokens where it succeeds.
theorem Laid.tokenize_eq_ok (h : Laid strict ts source) : tokenize source false = .ok ts := by
  obtain ⟨us, hus⟩ := exists_tokenize source
  rw [hus, (tokenize_eq_ok_iff.1 hus).isTokenization.unique h.isTokenization]

/-- Only strict scanning refuses a text. -/
theorem strict_of_tokenize_error {e : UnrecognizedCharacter}
    (h : tokenize source strict = .error e) : strict = true := by
  cases strict with
  | true => rfl
  | false =>
    obtain ⟨ts, hts⟩ := exists_tokenize source
    rw [hts] at h
    cases h

/-! ## Errors -/

/-- The tokens of a text start in it. -/
theorem Laid.start_lt_length (h : Laid strict ts source) {t : Token} (ht : t ∈ ts) :
    0 ≤ t.start ∧ t.start < source.length := by
  obtain ⟨hstart, hstop⟩ := h.within t ht
  exact ⟨hstart, Int.lt_of_lt_of_le (h.ordered.start_lt_stop t ht) hstop⟩

/-- A syntax error about tokens of a text is at one of them, or behind the last. -/
theorem Laid.arises_unexpected [CallStack] (h : Laid strict ts source) (expected : List TokenType)
    {rest : List Token} (hrest : rest <:+ ts) :
    (SourceError.grammar (.unexpected expected rest)).Arises source strict := by
  cases rest with
  | nil => exact .inl ⟨rfl, rfl⟩
  | cons t rest =>
    have ht : t ∈ ts := hrest.subset List.mem_cons_self
    obtain ⟨hstart, hlength⟩ := h.start_lt_length ht
    exact .inr ⟨t.type, t.start, ts, rfl, rfl, hstart, hlength, h.tokenize_eq_ok, t, ht, rfl, rfl⟩

/-- An error about the tokens of a text is one that may arise from the text. -/
theorem Laid.arises [CallStack] (h : Laid strict ts source) {e : ParseError}
    (he : parse ts = .error e) :
    (SourceError.grammar e).Arises source strict := by
  rcases Parse.program_error he with hmisfit | ⟨rest, rfl, -, hcrowded⟩
  · cases hmisfit with
    | unexpected expected hrest => exact h.arises_unexpected expected hrest
    | invalid node ht hvalue => exact absurd (h.isValued _ ht) hvalue
  · exact ⟨ts, h.tokenize_eq_ok, hcrowded⟩

/-- Parsing of a text returns a program or ends with one of the errors that may come up. -/
theorem parseSource_outcome [CallStack] (source : String) (strict : Bool) :
    (∃ p, parseSource source strict = .ok p) ∨
      ∃ e, parseSource source strict = .error e ∧ e.Arises source strict := by
  cases htokens : tokenize source strict with
  | error e =>
    refine .inr ⟨.character e, ?_, strict_of_tokenize_error htokens⟩
    rw [parseSource, htokens]
    rfl
  | ok ts =>
    rw [parseSource_of_tokens htokens]
    cases hparse : parse ts with
    | ok p => exact .inl ⟨p, rfl⟩
    | error e => exact .inr ⟨.grammar e, rfl, (tokenize_eq_ok_iff.1 htokens).arises hparse⟩

end LetFun
