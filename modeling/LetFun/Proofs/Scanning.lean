import LetFun.Proofs.Reader
import LetFun.Token.Scan
/-!
# Texts laid out in tokens

What it means that a text is the words of tokens, in order and at their offsets, with gaps between
them: `Laid`. The relation says nothing about how a text is scanned. The scanner finds the tokens
that a text is laid out in, and fails if there are none (`tokenize_eq_ok_iff`).
-/

namespace LetFun

/-! ## Words and gaps -/

namespace TokenType

def Writes : TokenType → List Char → Prop
  | .letWord, w => w = ['l', 'e', 't']
  | .functionWord, w => w = ['f', 'u', 'n', 'c', 't', 'i', 'o', 'n']
  | .assign, w => w = ['=']
  | .leftParen, w => w = ['(']
  | .rightParen, w => w = [')']
  | .leftCurly, w => w = ['\x7b']
  | .rightCurly, w => w = ['\x7d']
  | .identifier, w => w ≠ [] ∧ (∀ c ∈ w, c.isAlpha) ∧ w ≠ ['l', 'e', 't'] ∧
      w ≠ ['f', 'u', 'n', 'c', 't', 'i', 'o', 'n']

def isWord : TokenType → Bool
  | .letWord | .functionWord | .identifier => true
  | .assign | .leftParen | .rightParen | .leftCurly | .rightCurly => false

end TokenType

/-- The characters that may stand between tokens: all but ASCII letters and the symbols, or in
strict texts only spaces. -/
def IsGap (strict : Bool) (g : List Char) : Prop :=
  ∀ c ∈ g, if strict then c = ' ' else ¬ c.isAlpha ∧ c ∉ ['(', ')', '\x7b', '\x7d', '=']

/-- A token stands for the word `w` at offset `pos`. -/
structure Token.WrittenAs (t : Token) (pos : Nat) (w : List Char) : Prop where
  writes : t.type.Writes w
  value : t.value = some (String.ofList w)
  start : t.start = pos
  stop : t.stop = pos + w.length

/-- A text that starts with the first token, at offset `pos`: each word is followed by a gap, which
is not empty if it separates two words of letters. -/
inductive LaidFrom (strict : Bool) : (pos : Nat) → List Token → List Char → Prop where
  | nil {pos : Nat} : LaidFrom strict pos [] []
  | cons {pos : Nat} {t : Token} {ts : List Token} {w gap rest : List Char}
      (ht : t.WrittenAs pos w) (hgap : IsGap strict gap)
      (hapart : gap = [] → t.type.isWord = true → ∀ u ∈ ts.head?, u.type.isWord = false)
      (hrest : LaidFrom strict (pos + w.length + gap.length) ts rest) :
      LaidFrom strict pos (t :: ts) (w ++ (gap ++ rest))

def LaidAfterGap (strict : Bool) (pos : Nat) (ts : List Token) (cs : List Char) : Prop :=
  ∃ gap rest, IsGap strict gap ∧ cs = gap ++ rest ∧ LaidFrom strict (pos + gap.length) ts rest

def Laid (strict : Bool) (ts : List Token) (source : String) : Prop :=
  LaidAfterGap strict 0 ts source.toList

/-! ## Characters -/

def StopsWord (cs : List Char) : Prop :=
  ∀ c ∈ cs.head?, isLetter c = false

namespace TokenType

/-- A symbol is written as itself. -/
theorem ofSymbol?_eq_some_iff {c : Char} {type : TokenType} :
    ofSymbol? c = some type ↔ type.isWord = false ∧ type.Writes [c] := by
  constructor
  · intro h
    unfold ofSymbol? at h
    split at h <;> cases h <;> exact ⟨rfl, rfl⟩
  · rintro ⟨hword, hwrites⟩
    cases type <;> simp only [isWord, reduceCtorEq] at hword <;>
      simp only [Writes, List.cons.injEq, and_true] at hwrites <;> subst hwrites <;> rfl

theorem ofSymbol?_eq_none_iff {c : Char} :
    ofSymbol? c = none ↔ c ∉ ['(', ')', '\x7b', '\x7d', '='] := by
  unfold ofSymbol?
  split <;> simp_all

theorem isLetter_of_ofSymbol? {c : Char} {type : TokenType} (h : ofSymbol? c = some type) :
    isLetter c = false := by
  unfold ofSymbol? at h
  split at h <;> first | rfl | cases h

-- A token of letters is written with at least one letter and nothing else.
theorem letters_of_writes {type : TokenType} {w : List Char} (hword : type.isWord = true)
    (h : type.Writes w) : w ≠ [] ∧ ∀ c ∈ w, c.isAlpha := by
  cases type with
  | letWord =>
    rw [show w = ['l', 'e', 't'] from h]
    exact ⟨by decide, List.all_eq_true.1 (by decide)⟩
  | functionWord =>
    rw [show w = ['f', 'u', 'n', 'c', 't', 'i', 'o', 'n'] from h]
    exact ⟨by decide, List.all_eq_true.1 (by decide)⟩
  | identifier => exact ⟨h.1, h.2.1⟩
  | assign | leftParen | rightParen | leftCurly | rightCurly => cases hword

-- Every other token is written with a single symbol.
theorem symbol_of_writes {type : TokenType} {w : List Char} (hword : type.isWord = false)
    (h : type.Writes w) : ∃ c, w = [c] ∧ ofSymbol? c = some type := by
  obtain ⟨c, rfl⟩ : ∃ c, w = [c] := by
    cases type with
    | letWord | functionWord | identifier => cases hword
    | assign | leftParen | rightParen | leftCurly | rightCurly => exact ⟨_, h⟩
  exact ⟨c, rfl, ofSymbol?_eq_some_iff.2 ⟨hword, h⟩⟩

-- A word is read as the type that is written so.
theorem ofWord_eq_iff {w : List Char} (hw : w ≠ []) (hletters : ∀ c ∈ w, c.isAlpha)
    {type : TokenType} :
    ofWord (String.ofList w) = type ↔ type.isWord = true ∧ type.Writes w := by
  have hlet : (String.ofList w == "let") = decide (w = ['l', 'e', 't']) := by
    rw [Bool.eq_iff_iff, beq_iff_eq, decide_eq_true_iff]
    exact String.ofList_inj
  have hfunction : (String.ofList w == "function") =
      decide (w = ['f', 'u', 'n', 'c', 't', 'i', 'o', 'n']) := by
    rw [Bool.eq_iff_iff, beq_iff_eq, decide_eq_true_iff]
    exact String.ofList_inj
  rw [ofWord, keywords, List.lookup_cons, List.lookup_cons, List.lookup_nil, hlet, hfunction]
  by_cases h : w = ['l', 'e', 't']
  · subst h
    cases type <;> simp [isWord, Writes]
  · by_cases h' : w = ['f', 'u', 'n', 'c', 't', 'i', 'o', 'n']
    · subst h'
      cases type <;> simp [isWord, Writes]
    · cases type <;> simp [isWord, Writes, h, h', hw]
      exact hletters

end TokenType

theorem IsGap.nil {strict : Bool} : IsGap strict [] :=
  fun _ h => (nomatch h)

theorem StopsWord.nil : StopsWord [] :=
  fun _ h => (nomatch h)

/-- Gaps may be joined and taken apart. -/
theorem IsGap.append {strict : Bool} {g h : List Char} :
    IsGap strict (g ++ h) ↔ IsGap strict g ∧ IsGap strict h :=
  List.forall_mem_append

theorem IsGap.stopsWord {strict : Bool} {c : Char} {g : List Char} (h : IsGap strict (c :: g))
    (cs : List Char) : StopsWord (c :: (g ++ cs)) := by
  intro d hd
  cases hd
  have hc := h c List.mem_cons_self
  cases strict with
  | true =>
    subst hc
    rfl
  | false => simpa [isLetter] using hc.1

-- A character that is no letter and no symbol is a gap, in strict texts only if it is a space.
theorem isGap_singleton_iff {strict : Bool} {c : Char} (hc : isLetter c = false)
    (hsymbol : TokenType.ofSymbol? c = none) : IsGap strict [c] ↔ (strict = true → c = ' ') := by
  unfold IsGap
  rw [List.forall_mem_singleton]
  cases strict with
  | true => exact ⟨fun h _ => h, fun h => h rfl⟩
  | false =>
    rw [isLetter] at hc
    have hplain : ¬ c.isAlpha ∧ c ∉ ['(', ')', '\x7b', '\x7d', '='] :=
      ⟨by simp [hc], TokenType.ofSymbol?_eq_none_iff.1 hsymbol⟩
    exact ⟨fun _ h => (nomatch h), fun _ => hplain⟩

theorem IsGap.ofSymbol? {strict : Bool} {c : Char} (h : IsGap strict [c]) :
    TokenType.ofSymbol? c = none := by
  have hc := h c List.mem_cons_self
  cases strict with
  | true =>
    subst hc
    rfl
  | false => exact TokenType.ofSymbol?_eq_none_iff.2 hc.2

/-! ## Scanning -/

namespace Token

variable {strict : Bool} {pos : Nat}

-- Letters are kept until the word ends.
theorem scanFrom_letters {w : List Char} (hw : ∀ c ∈ w, isLetter c = true) (word cs : List Char) :
    scanFrom strict pos word (w ++ cs) =
      scanFrom strict (pos + w.length) (w.reverse ++ word) cs := by
  induction w generalizing pos word with
  | nil => rfl
  | cons c w ih =>
    rw [List.forall_mem_cons] at hw
    rw [List.cons_append, scanFrom, if_pos hw.1, ih hw.2, List.reverse_cons, List.append_assoc,
      List.singleton_append, List.length_cons, Nat.add_assoc, Nat.add_comm 1]

-- Where a word ends, its token comes before those of the rest.
theorem scanFrom_pending {cs : List Char} (h : StopsWord cs) (word : List Char) :
    scanFrom strict pos word cs =
      (scanFrom strict pos [] cs).map (pending pos word ++ ·) := by
  cases cs with
  | nil =>
    rw [scanFrom, scanFrom]
    simp [Except.map, pending]
  | cons c cs =>
    have hc : ¬ isLetter c = true := by rw [h c rfl]; decide
    rw [scanFrom, scanFrom, if_neg hc, if_neg hc]
    cases ofSeparator strict pos c with
    | error e => rfl
    | ok here =>
      cases scanFrom strict (pos + 1) [] cs with
      | error e => rfl
      | ok later => simp [Except.map, bind, Except.bind, pure, Except.pure, pending]

/-- A gap has no tokens. -/
theorem scanFrom_gap {gap : List Char} (h : IsGap strict gap) (cs : List Char) :
    scanFrom strict pos [] (gap ++ cs) = scanFrom strict (pos + gap.length) [] cs := by
  induction gap generalizing pos with
  | nil => rfl
  | cons c gap ih =>
    rw [← List.singleton_append, IsGap.append] at h
    have hc : isLetter c = false := h.1.stopsWord [] c rfl
    have hspace := (isGap_singleton_iff hc h.1.ofSymbol?).1 h.1
    have hseparator : ofSeparator strict pos c = .ok [] := by
      rw [ofSeparator, h.1.ofSymbol?]
      exact if_neg (by simpa using hspace)
    rw [List.cons_append, scanFrom, if_neg (by simp [hc]), hseparator, ih h.2, List.length_cons,
      Nat.add_assoc, Nat.add_comm 1]
    cases scanFrom strict (pos + (gap.length + 1)) [] cs <;> rfl

/-- A symbol is a token of one character. -/
theorem scanFrom_symbol {c : Char} {type : TokenType} (h : TokenType.ofSymbol? c = some type)
    (cs : List Char) :
    scanFrom strict pos [] (c :: cs) = (scanFrom strict (pos + 1) [] cs).map
      (⟨type, some (String.singleton c), pos, pos + 1⟩ :: ·) := by
  have hc := TokenType.isLetter_of_ofSymbol? h
  have hseparator : ofSeparator strict pos c =
      .ok [⟨type, some (String.singleton c), pos, pos + 1⟩] := by
    rw [ofSeparator, h]
  rw [scanFrom, if_neg (by simp [hc]), hseparator]
  cases scanFrom strict (pos + 1) [] cs <;> rfl

/-- A word is a token of all its letters, if it stops behind them. -/
theorem scanFrom_word {w cs : List Char} (hw : w ≠ []) (hletters : ∀ c ∈ w, c.isAlpha)
    (hcs : StopsWord cs) :
    scanFrom strict pos [] (w ++ cs) = (scanFrom strict (pos + w.length) [] cs).map
      (⟨TokenType.ofWord (String.ofList w), some (String.ofList w), pos, pos + w.length⟩ :: ·) := by
  have hpending : pending (pos + w.length) w.reverse =
      [⟨TokenType.ofWord (String.ofList w), some (String.ofList w), pos, pos + w.length⟩] := by
    cases hr : w.reverse with
    | nil => exact absurd (List.reverse_eq_nil_iff.1 hr) hw
    | cons c r =>
      rw [pending, ← hr, ofWord, List.reverse_reverse, List.length_reverse]
      simp
  rw [scanFrom_letters hletters, List.append_nil, scanFrom_pending hcs, hpending]
  rfl

-- A token that is written at the front is the first that is scanned, if its word ends there.
theorem scanFrom_writtenAs {t : Token} {w cs : List Char} (ht : t.WrittenAs pos w)
    (hcs : t.type.isWord = true → StopsWord cs) :
    scanFrom strict pos [] (w ++ cs) = (scanFrom strict (pos + w.length) [] cs).map (t :: ·) := by
  obtain ⟨type, value, start, stop⟩ := t
  obtain ⟨hwrites, rfl, rfl, rfl⟩ := ht
  cases hword : type.isWord with
  | false =>
    obtain ⟨c, rfl, hc⟩ := TokenType.symbol_of_writes hword hwrites
    exact scanFrom_symbol hc cs
  | true =>
    obtain ⟨hw, hletters⟩ := TokenType.letters_of_writes hword hwrites
    have htype := (TokenType.ofWord_eq_iff hw hletters).2 ⟨hword, hwrites⟩
    rw [scanFrom_word hw hletters (hcs hword), htype]

/-! ## Scanning laid out texts -/

-- After a token of letters there is no letter: its word ends at the next symbol, at a gap or at the
-- end of the text.
theorem stopsWord_of_laidFrom {ts : List Token} {gap rest : List Char} (hgap : IsGap strict gap)
    (hrest : LaidFrom strict pos ts rest)
    (hapart : gap = [] → ∀ u ∈ ts.head?, u.type.isWord = false) : StopsWord (gap ++ rest) := by
  cases gap with
  | cons c gap => exact hgap.stopsWord rest
  | nil =>
    cases hrest with
    | nil => exact .nil
    | @cons _ u ts w gap rest hu _ _ _ =>
      obtain ⟨c, rfl, hc⟩ := TokenType.symbol_of_writes (hapart rfl u rfl) hu.writes
      intro d hd
      cases hd
      exact TokenType.isLetter_of_ofSymbol? hc

/-- A text is scanned as the tokens from which it is laid out. -/
theorem scanFrom_of_laidFrom {ts : List Token} {cs : List Char} (h : LaidFrom strict pos ts cs) :
    scanFrom strict pos [] cs = .ok ts := by
  induction h with
  | nil => rfl
  | cons ht hgap hapart hrest ih =>
    have hstops := fun hword => stopsWord_of_laidFrom hgap hrest fun hnil => hapart hnil hword
    rw [scanFrom_writtenAs ht hstops, scanFrom_gap hgap, ih]
    rfl

-- The first letter of a text that starts with a token belongs to a token of letters.
theorem isWord_false_of_stopsWord {ts : List Token} {cs : List Char}
    (h : LaidFrom strict pos ts cs) (hstops : StopsWord cs) :
    ∀ u ∈ ts.head?, u.type.isWord = false := by
  intro u hu
  cases h with
  | nil => cases hu
  | @cons _ t ts w gap rest ht _ _ _ =>
    obtain rfl : t = u := Option.some.inj hu
    cases hword : t.type.isWord with
    | false => rfl
    | true =>
      obtain ⟨hw, hletters⟩ := TokenType.letters_of_writes hword ht.writes
      cases w with
      | nil => exact absurd rfl hw
      | cons c w =>
        have hc : isLetter c = false := hstops c rfl
        rw [isLetter, hletters c List.mem_cons_self] at hc
        cases hc

-- A token at the front and a laid out rest make a laid out text.
theorem laidAfterGap_cons {t : Token} {ts : List Token} {w cs : List Char}
    (ht : t.WrittenAs pos w) (hcs : t.type.isWord = true → StopsWord cs)
    (h : LaidAfterGap strict (pos + w.length) ts cs) :
    LaidAfterGap strict pos (t :: ts) (w ++ cs) := by
  obtain ⟨gap, rest, hgap, rfl, hrest⟩ := h
  refine ⟨[], w ++ (gap ++ rest), .nil, rfl, .cons ht hgap ?_ hrest⟩
  rintro rfl hword
  exact isWord_false_of_stopsWord hrest (hcs hword)

-- Letters at the front that are followed by none are scanned as one token.
theorem exists_of_scanFrom_word {ts : List Token} {w cs : List Char} (hw : w ≠ [])
    (hletters : ∀ c ∈ w, c.isAlpha) (hcs : StopsWord cs)
    (h : scanFrom strict pos [] (w ++ cs) = .ok ts) :
    ∃ t later, t.WrittenAs pos w ∧ scanFrom strict (pos + w.length) [] cs = .ok later ∧
      ts = t :: later := by
  rw [scanFrom_word hw hletters hcs] at h
  obtain ⟨later, hlater, rfl⟩ := Except.map_eq_ok_iff.1 h
  have hwrites := ((TokenType.ofWord_eq_iff hw hletters).1 rfl).2
  exact ⟨_, later, ⟨hwrites, rfl, rfl, rfl⟩, hlater, rfl⟩

theorem laidAfterGap_of_gap {ts : List Token} {gap cs : List Char} (hgap : IsGap strict gap)
    (h : LaidAfterGap strict (pos + gap.length) ts cs) :
    LaidAfterGap strict pos ts (gap ++ cs) := by
  obtain ⟨gap', rest, hgap', rfl, hrest⟩ := h
  refine ⟨gap ++ gap', rest, IsGap.append.2 ⟨hgap, hgap'⟩, (List.append_assoc ..).symm, ?_⟩
  rw [List.length_append, ← Nat.add_assoc]
  exact hrest

-- A character that is no letter and no symbol is dropped, unless a strict text refuses it.
theorem isGap_of_scanFrom {ts : List Token} {c : Char} {cs : List Char} (hc : isLetter c = false)
    (hsymbol : TokenType.ofSymbol? c = none) (h : scanFrom strict pos [] (c :: cs) = .ok ts) :
    IsGap strict [c] := by
  refine (isGap_singleton_iff hc hsymbol).2 fun hstrict => ?_
  by_cases hblank : c = ' '
  · exact hblank
  · rw [scanFrom, if_neg (by simp [hc]), ofSeparator, hsymbol] at h
    simp [hstrict, hblank, bind, Except.bind] at h

-- A letter and the letters after it are a word that ends at the next character, if there is one.
theorem exists_word {c : Char} (hc : isLetter c = true) (cs : List Char) :
    ∃ w rest, c :: cs = w ++ rest ∧ w ≠ [] ∧ (∀ d ∈ w, isLetter d = true) ∧ StopsWord rest := by
  refine ⟨c :: cs.takeWhile isLetter, cs.dropWhile isLetter, ?_, List.cons_ne_nil _ _,
    List.forall_mem_cons.2 ⟨hc, List.all_eq_true.1 List.all_takeWhile⟩, fun d hd => ?_⟩
  · rw [List.cons_append, List.takeWhile_append_dropWhile]
  · have hnot := List.head?_dropWhile_not isLetter cs
    rw [Option.mem_def.1 hd] at hnot
    exact hnot

-- The tokens that are scanned are those that the text is laid out in. The induction is on the
-- length of the text, as a whole word is taken off at once.
theorem laidAfterGap_of_scanFrom {pos : Nat} {ts : List Token} {cs : List Char}
    (h : scanFrom strict pos [] cs = .ok ts) : LaidAfterGap strict pos ts cs := by
  generalize hn : cs.length = n
  induction n using Nat.strongRecOn generalizing cs pos ts with
  | ind n ih =>
    cases cs with
    | nil =>
      cases h
      exact ⟨[], [], .nil, rfl, .nil⟩
    | cons c cs =>
      -- A letter starts a word, which is taken as a whole, so the induction is on the length.
      by_cases hletter : isLetter c = true
      · obtain ⟨w, rest, hword, hw, hletters, hstops⟩ := exists_word hletter cs
        have hpositive := List.length_pos_iff.2 hw
        rw [hword] at h hn ⊢
        rw [List.length_append] at hn
        obtain ⟨t, later, ht, hlater, rfl⟩ := exists_of_scanFrom_word hw hletters hstops h
        exact laidAfterGap_cons ht (fun _ => hstops) (ih _ (by omega) hlater rfl)
      · have hletter : isLetter c = false := by simpa using hletter
        rw [List.length_cons] at hn
        cases hsymbol : TokenType.ofSymbol? c with
        | some type =>
          rw [scanFrom_symbol hsymbol] at h
          obtain ⟨later, hlater, rfl⟩ := Except.map_eq_ok_iff.1 h
          obtain ⟨hword, hwrites⟩ := TokenType.ofSymbol?_eq_some_iff.1 hsymbol
          refine laidAfterGap_cons (w := [c]) ⟨hwrites, rfl, rfl, rfl⟩ (fun h => ?_)
            (ih _ (by omega) hlater rfl)
          rw [hword] at h
          cases h
        | none =>
          have hgap := isGap_of_scanFrom hletter hsymbol h
          have hrest : scanFrom strict pos [] (c :: cs) = scanFrom strict (pos + 1) [] cs :=
            scanFrom_gap hgap cs
          rw [hrest] at h
          exact laidAfterGap_of_gap hgap (ih _ (by omega) h rfl)

end Token

/-- The scanner returns the tokens that the text is laid out in, and fails if there are none. -/
theorem tokenize_eq_ok_iff {source : String} {strict : Bool} {ts : List Token} :
    tokenize source strict = .ok ts ↔ Laid strict ts source := by
  constructor
  · exact Token.laidAfterGap_of_scanFrom
  · rintro ⟨gap, rest, hgap, hsource, hrest⟩
    have hscan := Token.scanFrom_of_laidFrom hrest
    rw [tokenize, Token.scan, hsource, Token.scanFrom_gap hgap]
    exact hscan

end LetFun
