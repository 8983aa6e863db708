import LetFun.Proofs.Scanning.Strict
import LetFun.Proofs.Seams
/-!
# The tokens of two texts together

The tokens of a text and of a text behind it tell those of both together: they stand one behind the
other, but for a word that goes on from the first text into the second, which is one token
(`tokenize_append_joined`).
-/

namespace LetFun

def EndsInWord (source : String) : Prop :=
  ∃ c ∈ source.toList.getLast?, c.isAlpha

def StartsInWord (source : String) : Prop :=
  ∃ c ∈ source.toList.head?, c.isAlpha

/-- How the tokens of two texts make those of both. The tokens of the second come behind those of
the first, at offsets that are higher by the length of the first text. If the first ends and the
second starts with a letter, the tokens that meet there are one word of both their values, and its
type is that of the whole word. -/
inductive Token.Joined (a b : String) : (ts us whole : List Token) → Prop where
  | apart {ts us : List Token} (h : ¬ (EndsInWord a ∧ StartsInWord b)) :
      Joined a b ts us (ts ++ us.map (Token.shift a.length))
  | within {ts us : List Token} {t u : Token} {v w : String} (h : EndsInWord a ∧ StartsInWord b)
      (ht : t.value = some v) (hu : u.value = some w) :
      Joined a b (ts ++ [t]) (u :: us)
        (ts ++ ⟨TokenType.ofWord (v ++ w), some (v ++ w), t.start, a.length + u.stop⟩ ::
          us.map (Token.shift a.length))

/-! ## Words at the seam -/

/-- A text starts with the word `w`, which ends before `rest`. -/
structure FirstWord (text w rest : List Char) : Prop where
  text_eq : text = w ++ rest
  ne_nil : w ≠ []
  letters : ∀ c ∈ w, c.isAlpha
  stops : StopsWord rest

structure LastWord (text front w : List Char) : Prop where
  text_eq : text = front ++ w
  ne_nil : w ≠ []
  letters : ∀ c ∈ w, c.isAlpha
  starts : StopsWord front.reverse

/-- A text that does not start with a letter stops every word before it. -/
theorem stopsWord_of_not_startsInWord {b : String} (h : ¬ StartsInWord b) : StopsWord b.toList := by
  intro c hc
  by_contra hletter
  exact h ⟨c, hc, by simpa [isLetter] using hletter⟩

theorem stopsWord_of_not_endsInWord {a : String} (h : ¬ EndsInWord a) :
    StopsWord a.toList.reverse := by
  intro c hc
  rw [List.head?_reverse] at hc
  by_contra hletter
  exact h ⟨c, hc, by simpa [isLetter] using hletter⟩

/-- A text that starts with a letter starts with a word. -/
theorem exists_firstWord {b : String} (h : StartsInWord b) :
    ∃ w rest, FirstWord b.toList w rest := by
  obtain ⟨c, hc, hletter⟩ := h
  obtain ⟨cs, hcs⟩ := List.head?_eq_some_iff.1 hc
  obtain ⟨w, rest, hsplit, hw, hletters, hstops⟩ := Token.exists_word hletter cs
  exact ⟨w, rest, hcs.trans hsplit, hw, hletters, hstops⟩

-- The last word is the first one of the text read backwards.
theorem exists_lastWord {a : String} (h : EndsInWord a) :
    ∃ front w, LastWord a.toList front w := by
  obtain ⟨c, hc, hletter⟩ := h
  rw [← List.head?_reverse] at hc
  obtain ⟨cs, hcs⟩ := List.head?_eq_some_iff.1 hc
  obtain ⟨w, rest, hsplit, hw, hletters, hstops⟩ := Token.exists_word hletter cs
  refine ⟨rest.reverse, w.reverse, ?_, by simpa using hw, fun d hd => ?_, by simpa using hstops⟩
  · rw [← List.reverse_append, ← hsplit, ← hcs, List.reverse_reverse]
  · exact hletters d (List.mem_reverse.1 hd)

namespace Token

variable {strict : Bool} {ts : List Token} {text front v w rest : List Char}

def wordAt (pos : Nat) (w : List Char) : Token :=
  ⟨TokenType.ofWord (String.ofList w), some (String.ofList w), pos, pos + w.length⟩

theorem wordAt_append (pos : Nat) (v w : List Char) :
    wordAt pos (v ++ w) = ⟨TokenType.ofWord (String.ofList v ++ String.ofList w),
      some (String.ofList v ++ String.ofList w), pos, pos + v.length + w.length⟩ := by
  rw [wordAt, String.ofList_append, List.length_append, Int.natCast_add, Int.add_assoc]

/-- A word between characters that are no letters is one token, behind the tokens before it. -/
theorem scan_between_eq_ok_iff (hfront : StopsWord front.reverse) (hw : w ≠ [])
    (hletters : ∀ c ∈ w, c.isAlpha) (hrest : StopsWord rest) :
    scan (front ++ (w ++ rest)) strict = .ok ts ↔
      ∃ before behind, scan front strict = .ok before ∧
        scanFrom strict (front.length + w.length) [] rest = .ok behind ∧
        ts = before ++ wordAt front.length w :: behind := by
  rw [scan, scanFrom_append [] (.inr ⟨hfront, fun _ => rfl⟩), scanFrom_word hw hletters hrest,
    Nat.zero_add, Except.bind_eq_ok_iff]
  refine exists_congr fun before => ?_
  rw [Except.bind_eq_ok_iff]
  constructor
  · rintro ⟨hbefore, us, hus, hts⟩
    obtain ⟨behind, hbehind, rfl⟩ := Except.map_eq_ok_iff.1 hus
    cases hts
    exact ⟨behind, hbefore, hbehind, rfl⟩
  · rintro ⟨behind, hbefore, hbehind, rfl⟩
    exact ⟨hbefore, _, Except.map_eq_ok_iff.2 ⟨behind, hbehind, rfl⟩, rfl⟩

/-- The last word of a text is its last token. -/
theorem exists_of_lastWord (h : LastWord text front w) (hts : scan text strict = .ok ts) :
    ∃ before, scan front strict = .ok before ∧ ts = before ++ [wordAt front.length w] := by
  rw [h.text_eq, ← List.append_nil w,
    scan_between_eq_ok_iff h.starts h.ne_nil h.letters .nil] at hts
  obtain ⟨before, behind, hbefore, hbehind, rfl⟩ := hts
  cases hbehind
  exact ⟨before, hbefore, rfl⟩

/-- The first word of a text is its first token. -/
theorem exists_of_firstWord (h : FirstWord text w rest) (hts : scan text strict = .ok ts) :
    ∃ behind, scanFrom strict w.length [] rest = .ok behind ∧ ts = wordAt 0 w :: behind := by
  have hstart : StopsWord ([] : List Char).reverse := .nil
  rw [h.text_eq, ← List.nil_append (w ++ rest),
    scan_between_eq_ok_iff hstart h.ne_nil h.letters h.stops] at hts
  obtain ⟨before, behind, hbefore, hbehind, rfl⟩ := hts
  cases hbefore
  rw [List.length_nil, Nat.zero_add] at hbehind
  exact ⟨behind, hbehind, rfl⟩

end Token

/-! ## Tokens -/

variable {a b : String} {strict : Bool} {ts us : List Token}

-- The words that meet at the seam are scanned as one, and what is before and behind them as it was.
theorem exists_tokenize_within (h : EndsInWord a ∧ StartsInWord b)
    (ha : tokenize a strict = .ok ts) (hb : tokenize b strict = .ok us) :
    ∃ whole, tokenize (a ++ b) strict = .ok whole ∧ Token.Joined a b ts us whole := by
  obtain ⟨front, v, hv⟩ := exists_lastWord h.1
  obtain ⟨w, rest, hw⟩ := exists_firstWord h.2
  obtain ⟨ts, hts, rfl⟩ := Token.exists_of_lastWord hv ha
  obtain ⟨us, hus, rfl⟩ := Token.exists_of_firstWord hw hb
  have hlength : a.length = front.length + v.length := by
    rw [← String.length_toList, hv.text_eq, List.length_append]
  -- Behind the joined word the second text goes on as it does by itself, further back.
  have hbehind : Token.scanFrom strict (front.length + (v ++ w).length) [] rest =
      .ok (us.map (Token.shift a.length)) := by
    have hadd : Token.scanFrom strict (w.length + a.length) [] rest = _ :=
      Token.scanFrom_add a.length [] rest
    rw [hus] at hadd
    rw [List.length_append, ← Nat.add_assoc, ← hlength, Nat.add_comm]
    exact hadd
  have hwhole : tokenize (a ++ b) strict =
      .ok (ts ++ Token.wordAt front.length (v ++ w) :: us.map (Token.shift a.length)) := by
    rw [tokenize, String.toList_append, hv.text_eq, hw.text_eq, List.append_assoc,
      ← List.append_assoc v, Token.scan_between_eq_ok_iff hv.starts
        (List.append_ne_nil_of_left_ne_nil hv.ne_nil w)
        (List.forall_mem_append.2 ⟨hv.letters, hw.letters⟩) hw.stops]
    exact ⟨ts, _, hts, hbehind, rfl⟩
  have hstop : (front.length : Int) + v.length + w.length =
      a.length + (Token.wordAt 0 w).stop := by
    rw [hlength, Int.natCast_add]
    show _ = _ + ((0 : Nat) + (w.length : Int))
    omega
  rw [Token.wordAt_append, hstop] at hwhole
  exact ⟨_, hwhole, .within h rfl rfl⟩

/-- Two texts that are accepted make one that is, with the tokens of both joined. -/
theorem exists_tokenize_joined (ha : tokenize a strict = .ok ts) (hb : tokenize b strict = .ok us) :
    ∃ whole, tokenize (a ++ b) strict = .ok whole ∧ Token.Joined a b ts us whole := by
  by_cases h : EndsInWord a ∧ StartsInWord b
  · exact exists_tokenize_within h ha hb
  · refine ⟨_, ?_, .apart h⟩
    have hstops : StopsWord b.toList ∨ StopsWord a.toList.reverse := by
      rcases not_and_or.1 h with hends | hstarts
      · exact .inr (stopsWord_of_not_endsInWord hends)
      · exact .inl (stopsWord_of_not_startsInWord hstarts)
    rw [tokenize_append hstops, ha, hb]
    rfl

/-! ## Errors -/

theorem IsFirstForeign.append {e : UnrecognizedCharacter} (h : IsFirstForeign a e) (b : String) :
    IsFirstForeign (a ++ b) e := by
  obtain ⟨front, rest, hsource, hposition, hforeign⟩ := h
  refine ⟨front, rest ++ b.toList, ?_, hposition, hforeign⟩
  rw [String.toList_append, hsource, List.append_assoc, List.cons_append]

/-- Behind a text without foreign characters, the first one is that of the other text, shifted. -/
theorem IsFirstForeign.behind {e : UnrecognizedCharacter} (h : IsFirstForeign b e)
    (ha : ∀ c ∈ a.toList, ¬ IsForeign c) : IsFirstForeign (a ++ b) (e.shift a.length) := by
  obtain ⟨front, rest, hsource, hposition, hforeign, hfront⟩ := h
  refine ⟨a.toList ++ front, rest, ?_, ?_, hforeign, List.forall_mem_append.2 ⟨ha, hfront⟩⟩
  · rw [String.toList_append, hsource, List.append_assoc]
    rfl
  · rw [List.length_append, String.length_toList, ← hposition]
    exact Nat.add_comm _ _

theorem no_foreign_of_tokenize (h : tokenize a true = .ok ts) : ∀ c ∈ a.toList, ¬ IsForeign c := by
  intro c hc hforeign
  obtain ⟨e, he⟩ := exists_isFirstForeign ⟨c, hc, hforeign⟩
  rw [he.tokenize_eq_error] at h
  cases h

/-- The tokens of a text and of a text behind it make the tokens of both: they stand one behind the
other, except that a word may go on over the seam. Strict scanning fails on both together exactly if
it fails on one, with the error of the first, or else with that of the second behind the first. -/
theorem tokenize_append_joined (a b : String) :
    (∃ ts us whole, tokenize a false = .ok ts ∧ tokenize b false = .ok us ∧
      tokenize (a ++ b) false = .ok whole ∧ Token.Joined a b ts us whole) ∧
    (∀ ts us, tokenize a true = .ok ts → tokenize b true = .ok us →
      ∃ whole, tokenize (a ++ b) true = .ok whole ∧ Token.Joined a b ts us whole) ∧
    ((∃ e, tokenize (a ++ b) true = .error e) ↔
      (∃ e, tokenize a true = .error e) ∨ ∃ e, tokenize b true = .error e) ∧
    (∀ e, tokenize a true = .error e → tokenize (a ++ b) true = .error e) ∧
    ∀ ts e, tokenize a true = .ok ts → tokenize b true = .error e →
      tokenize (a ++ b) true = .error (e.shift a.length) := by
  have hfirst : ∀ e, tokenize a true = .error e → tokenize (a ++ b) true = .error e := fun e he =>
    ((tokenize_eq_error_iff.1 he).append b).tokenize_eq_error
  have hsecond : ∀ ts e, tokenize a true = .ok ts → tokenize b true = .error e →
      tokenize (a ++ b) true = .error (e.shift a.length) := fun ts e hts he =>
    ((tokenize_eq_error_iff.1 he).behind (no_foreign_of_tokenize hts)).tokenize_eq_error
  refine ⟨?_, fun ts us => exists_tokenize_joined, ⟨?_, ?_⟩, hfirst, hsecond⟩
  · obtain ⟨ts, hts⟩ := exists_tokenize a
    obtain ⟨us, hus⟩ := exists_tokenize b
    obtain ⟨whole, hwhole, hjoined⟩ := exists_tokenize_joined hts hus
    exact ⟨ts, us, whole, hts, hus, hwhole, hjoined⟩
  -- Two texts that are accepted are accepted together, so an error comes from one of them.
  · rintro ⟨e, he⟩
    cases ha : tokenize a true with
    | error e' => exact .inl ⟨e', rfl⟩
    | ok ts =>
      cases hb : tokenize b true with
      | error e' => exact .inr ⟨e', rfl⟩
      | ok us =>
        obtain ⟨whole, hwhole, _⟩ := exists_tokenize_joined ha hb
        rw [hwhole] at he
        cases he
  · rintro (⟨e, he⟩ | ⟨e, he⟩)
    · exact ⟨e, hfirst e he⟩
    · cases ha : tokenize a true with
      | error e' => exact ⟨e', hfirst e' ha⟩
      | ok ts => exact ⟨_, hsecond ts e ha he⟩

/-- Two names become a keyword, and a foreign character is refused in either text. -/
theorem splitKeyword_joined :
    (tokenize "=fun" true = .ok [⟨.assign, some "=", 0, 1⟩, ⟨.identifier, some "fun", 1, 4⟩] ∧
      tokenize "ction(" true =
        .ok [⟨.identifier, some "ction", 0, 5⟩, ⟨.leftParen, some "(", 5, 6⟩] ∧
      Token.Joined "=fun" "ction(" [⟨.assign, some "=", 0, 1⟩, ⟨.identifier, some "fun", 1, 4⟩]
        [⟨.identifier, some "ction", 0, 5⟩, ⟨.leftParen, some "(", 5, 6⟩]
        [⟨.assign, some "=", 0, 1⟩, ⟨.functionWord, some "function", 1, 9⟩,
          ⟨.leftParen, some "(", 9, 10⟩]) ∧
    (tokenize "=;" true = .error ⟨';', 1⟩ ∧ tokenize ("=;" ++ "ction(") true = .error ⟨';', 1⟩ ∧
      tokenize ("=fun" ++ "=;") true = .error ⟨';', 5⟩) := by
  have hfun : tokenize "=fun" true =
      .ok [⟨.assign, some "=", 0, 1⟩, ⟨.identifier, some "fun", 1, 4⟩] := by decide +kernel
  have hction : tokenize "ction(" true =
      .ok [⟨.identifier, some "ction", 0, 5⟩, ⟨.leftParen, some "(", 5, 6⟩] := by decide +kernel
  have hboth : tokenize ("=fun" ++ "ction(") true =
      .ok [⟨.assign, some "=", 0, 1⟩, ⟨.functionWord, some "function", 1, 9⟩,
        ⟨.leftParen, some "(", 9, 10⟩] := by decide +kernel
  have hforeign : tokenize "=;" true = .error ⟨';', 1⟩ := by decide +kernel
  obtain ⟨whole, hwhole, hjoined⟩ :=
    (tokenize_append_joined "=fun" "ction(").2.1 _ _ hfun hction
  rw [hboth] at hwhole
  cases hwhole
  refine ⟨⟨hfun, hction, hjoined⟩, hforeign, ?_, ?_⟩
  · exact (tokenize_append_joined "=;" "ction(").2.2.2.1 _ hforeign
  · exact (tokenize_append_joined "=fun" "=;").2.2.2.2 _ _ hfun hforeign

end LetFun
