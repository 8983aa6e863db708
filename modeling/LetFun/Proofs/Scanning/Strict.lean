import LetFun.Proofs.Outcomes
/-!
# Strict and lenient scanning

A foreign character is neither a space nor part of a token. Strict scanning refuses the first one,
and lenient scanning reads all of them as spaces (`scanFrom_blank`); a text without any is scanned
alike in both ways (`tokenize_strict`).
-/

namespace LetFun

def IsForeign (c : Char) : Prop :=
  c ≠ ' ' ∧ ¬ IsTokenCharacter c

instance : DecidablePred IsForeign := fun c =>
  inferInstanceAs (Decidable (c ≠ ' ' ∧ ¬ (c.isAlpha ∨ c ∈ ['(', ')', '\x7b', '\x7d', '='])))

/-- An error about the first foreign character of a text, at the number of characters before it. -/
def IsFirstForeign (source : String) (e : UnrecognizedCharacter) : Prop :=
  ∃ front rest, source.toList = front ++ e.character :: rest ∧ e.position = front.length ∧
    IsForeign e.character ∧ ∀ c ∈ front, ¬ IsForeign c

def blank (c : Char) : Char :=
  if IsForeign c then ' ' else c

def blanked (source : String) : String :=
  source.map blank

/-! ## Characters -/

/-- A foreign character is no space, no letter and no symbol. -/
theorem isForeign_iff {c : Char} :
    IsForeign c ↔ c ≠ ' ' ∧ isLetter c = false ∧ TokenType.ofSymbol? c = none := by
  rw [IsForeign, isTokenCharacter_iff, not_or, Bool.not_eq_true, ← Option.ne_none_iff_exists',
    not_not]

theorem blank_of_isForeign {c : Char} (h : IsForeign c) : blank c = ' ' :=
  if_pos h

theorem blank_of_not_isForeign {c : Char} (h : ¬ IsForeign c) : blank c = c :=
  if_neg h

theorem isLetter_blank (c : Char) : isLetter (blank c) = isLetter c := by
  by_cases h : IsForeign c
  · rw [blank_of_isForeign h, (isForeign_iff.1 h).2.1]
    rfl
  · rw [blank_of_not_isForeign h]

namespace Token

theorem ofSeparator_of_isForeign {c : Char} (h : IsForeign c) (pos : Nat) :
    ofSeparator true pos c = .error ⟨c, pos⟩ := by
  rw [ofSeparator, (isForeign_iff.1 h).2.2]
  exact if_pos (by simpa using h.1)

/-- Strictness makes no difference for other characters. -/
theorem ofSeparator_of_not_isForeign {c : Char} (hc : isLetter c = false) (h : ¬ IsForeign c)
    (pos : Nat) : ofSeparator true pos c = ofSeparator false pos c := by
  rw [ofSeparator, ofSeparator]
  cases hsymbol : TokenType.ofSymbol? c with
  | some type => rfl
  | none =>
    have hspace : c = ' ' := by
      by_contra hne
      exact h (isForeign_iff.2 ⟨hne, hc, hsymbol⟩)
    rw [hspace]
    rfl

-- A foreign character separates tokens as a space does.
theorem ofSeparator_blank {c : Char} (hc : isLetter c = false) (pos : Nat) :
    ofSeparator true pos (blank c) = ofSeparator false pos c := by
  by_cases h : IsForeign c
  · rw [blank_of_isForeign h, ofSeparator, ofSeparator, (isForeign_iff.1 h).2.2]
    rfl
  · rw [blank_of_not_isForeign h, ofSeparator_of_not_isForeign hc h]

/-! ## Scanning -/

/-- Both ways of scanning run in step, the strict one on spaces where the lenient one is on foreign
characters. -/
theorem scanFrom_blank (pos : Nat) (word cs : List Char) :
    scanFrom true pos word (cs.map blank) = scanFrom false pos word cs := by
  induction cs generalizing pos word with
  | nil => rfl
  | cons c cs ih =>
    rw [List.map_cons, scanFrom, scanFrom, isLetter_blank]
    by_cases hc : isLetter c = true
    · have hforeign : ¬ IsForeign c := fun h => by
        rw [(isForeign_iff.1 h).2.1] at hc
        cases hc
      rw [if_pos hc, if_pos hc, blank_of_not_isForeign hforeign, ih]
    · rw [if_neg hc, if_neg hc, ofSeparator_blank (by simpa using hc), ih]

/-- Strictness makes no difference for a text without foreign characters. -/
theorem scanFrom_of_no_foreign {cs : List Char} (h : ∀ c ∈ cs, ¬ IsForeign c) (pos : Nat)
    (word : List Char) : scanFrom true pos word cs = scanFrom false pos word cs := by
  have hblank : cs.map blank = cs.map id :=
    List.map_congr_left fun c hc => blank_of_not_isForeign (h c hc)
  rw [List.map_id] at hblank
  rw [← scanFrom_blank, hblank]

-- The characters before the first foreign one are scanned without an error.
theorem scanFrom_foreign {front rest : List Char} {c : Char} (hc : IsForeign c)
    (hfront : ∀ d ∈ front, ¬ IsForeign d) (pos : Nat) (word : List Char) :
    scanFrom true pos word (front ++ c :: rest) = .error ⟨c, pos + front.length⟩ := by
  induction front generalizing pos word with
  | nil =>
    rw [List.nil_append, scanFrom, (isForeign_iff.1 hc).2.1, ofSeparator_of_isForeign hc]
    rfl
  | cons d front ih =>
    rw [List.forall_mem_cons] at hfront
    rw [List.cons_append, scanFrom, ih hfront.2, ih hfront.2, List.length_cons,
      Nat.add_comm front.length, ← Nat.add_assoc]
    by_cases hd : isLetter d = true
    · rw [if_pos hd]
    · obtain ⟨here, hhere⟩ := exists_ofSeparator pos d
      rw [if_neg hd, ofSeparator_of_not_isForeign (by simpa using hd) hfront.1, hhere]
      rfl

end Token

/-! ## Texts -/

variable {source : String}

/-- Where there is a foreign character, there is a first one. -/
theorem exists_isFirstForeign (h : ∃ c ∈ source.toList, IsForeign c) :
    ∃ e, IsFirstForeign source e := by
  obtain ⟨c, hc⟩ : ∃ c, source.toList.find? (fun c => IsForeign c) = some c := by
    rw [← Option.isSome_iff_exists, List.find?_isSome]
    simpa using h
  obtain ⟨hforeign, front, rest, hsource, hfront⟩ := List.find?_eq_some_iff_append.1 hc
  exact ⟨⟨c, front.length⟩, front, rest, hsource, rfl, by simpa using hforeign,
    by simpa using hfront⟩

theorem IsFirstForeign.mem {e : UnrecognizedCharacter} (h : IsFirstForeign source e) :
    ∃ c ∈ source.toList, IsForeign c := by
  obtain ⟨front, rest, hsource, _, hforeign, _⟩ := h
  exact ⟨e.character, hsource ▸ List.mem_append_right _ List.mem_cons_self, hforeign⟩

/-- The first foreign character is the one that is reported. -/
theorem IsFirstForeign.tokenize_eq_error {e : UnrecognizedCharacter}
    (h : IsFirstForeign source e) : tokenize source true = .error e := by
  obtain ⟨c, pos⟩ := e
  obtain ⟨front, rest, hsource, rfl, hforeign, hfront⟩ := h
  rw [tokenize, Token.scan, hsource, Token.scanFrom_foreign hforeign hfront, Nat.zero_add]

theorem tokenize_of_no_foreign (h : ∀ c ∈ source.toList, ¬ IsForeign c) :
    tokenize source true = tokenize source false :=
  Token.scanFrom_of_no_foreign h 0 []

/-- Strict scanning fails for the first foreign character and for nothing else. -/
theorem tokenize_eq_error_iff {e : UnrecognizedCharacter} :
    tokenize source true = .error e ↔ IsFirstForeign source e := by
  refine ⟨fun h => ?_, IsFirstForeign.tokenize_eq_error⟩
  by_cases hforeign : ∃ c ∈ source.toList, IsForeign c
  · obtain ⟨e', he'⟩ := exists_isFirstForeign hforeign
    rw [he'.tokenize_eq_error] at h
    cases h
    exact he'
  · obtain ⟨ts, hts⟩ := exists_tokenize source
    rw [tokenize_of_no_foreign fun c hc h => hforeign ⟨c, hc, h⟩, hts] at h
    cases h

/-- Strict scanning fails exactly on texts with foreign characters, because of the first of them and
whatever is wrong with the tokens before it; otherwise it finds the tokens that lenient scanning
finds. Lenient scanning is strict scanning of the text with spaces in place of such characters. -/
theorem tokenize_strict [CallStack] (source : String) :
    ∃ ts, tokenize source false = .ok ts ∧ tokenize (blanked source) true = .ok ts ∧
      ((∃ e, tokenize source true = .error e) ↔ ∃ c ∈ source.toList, IsForeign c) ∧
      (∀ e, tokenize source true = .error e ↔ IsFirstForeign source e) ∧
      ((∀ c ∈ source.toList, ¬ IsForeign c) → tokenize source true = .ok ts) ∧
      ∀ e, IsFirstForeign source e → parseSource source true = .error (.character e) := by
  obtain ⟨ts, hts⟩ := exists_tokenize source
  have hblanked : tokenize (blanked source) true = .ok ts := by
    rw [← hts, tokenize, blanked, Token.scan, String.toList_map]
    exact Token.scanFrom_blank 0 [] source.toList
  refine ⟨ts, hts, hblanked, ⟨?_, ?_⟩, fun e => tokenize_eq_error_iff, fun h => ?_, fun e he => ?_⟩
  · rintro ⟨e, he⟩
    exact (tokenize_eq_error_iff.1 he).mem
  · intro h
    obtain ⟨e, he⟩ := exists_isFirstForeign h
    exact ⟨e, he.tokenize_eq_error⟩
  · rw [tokenize_of_no_foreign h, hts]
  · rw [parseSource, he.tokenize_eq_error]
    rfl

/-- The semicolon is refused although the `=` before it is out of place. The text before it has no
foreign character. -/
theorem misplacedAssign_strict :
    (IsFirstForeign "let =;" ⟨';', 5⟩ ∧ tokenize "let =;" true = .error ⟨';', 5⟩ ∧
      parseSource "let =;" true = .error (.character ⟨';', 5⟩) ∧
      parseSource "let =;" false =
        .error (.grammar (.unexpected [.identifier] [⟨.assign, some "=", 4, 5⟩]))) ∧
    (∀ c ∈ "let =".toList, ¬ IsForeign c) ∧ tokenize "let =" true = tokenize "let =" false := by
  have hall : ("let =".toList.all fun c => ¬ IsForeign c) = true := by decide +kernel
  have hclean : ∀ c ∈ "let =".toList, ¬ IsForeign c := fun c hc =>
    of_decide_eq_true (List.all_eq_true.1 hall c hc)
  have hfirst : IsFirstForeign "let =;" ⟨';', 5⟩ :=
    ⟨"let =".toList, [], rfl, rfl, by decide, hclean⟩
  have hlenient : parseSource "let =;" false =
      .error (.grammar (.unexpected [.identifier] [⟨.assign, some "=", 4, 5⟩])) := by
    decide +kernel
  obtain ⟨_, _, _, _, hrefused, _, hparse⟩ := tokenize_strict "let =;"
  obtain ⟨ts, hts, _, _, _, hscanned, _⟩ := tokenize_strict "let ="
  refine ⟨⟨hfirst, (hrefused _).2 hfirst, hparse _ hfirst, hlenient⟩, hclean, ?_⟩
  rw [hscanned hclean, hts]

end LetFun
