import LetFun.Proofs.Slices
import Mathlib.Data.List.Infix
import Mathlib.Data.List.Sort
/-!
# The tokens of a text by their places

Which tokens a text has can be said of its characters alone: the tokens cover the letters and the
symbols and nothing else, each symbol is a token by itself, and the letters between two other
characters are one token. Every text has exactly one such list of tokens, and it is the list that
the scanner returns (`tokenize_isTokenization_and_unique`).
-/

namespace LetFun

def IsTokenCharacter (c : Char) : Prop :=
  c.isAlpha ∨ c ∈ ['(', ')', '\x7b', '\x7d', '=']

def TokenType.symbols : List (Char × TokenType) :=
  [('(', .leftParen), (')', .rightParen), ('\x7b', .leftCurly), ('\x7d', .rightCurly),
    ('=', .assign)]

def LetterAt (source : String) (i : Nat) : Prop :=
  ∃ c, source.toList[i]? = some c ∧ c.isAlpha

namespace Token

def span (t : Token) : Span := ⟨t.start, t.stop⟩

def Covers (t : Token) (i : Nat) : Prop :=
  t.start ≤ i ∧ i < t.stop

/-- A token of one character, which decides the type. -/
structure IsSymbolIn (t : Token) (source : String) : Prop where
  stop : t.stop = t.start + 1
  type : ∃ (i : Nat) (c : Char), t.start = i ∧ source.toList[i]? = some c ∧
    (c, t.type) ∈ TokenType.symbols

/-- A token of letters that stands between characters that are none, or at an end of the source. Its
text decides the type. -/
structure IsWordIn (t : Token) (source : String) : Prop where
  letters : ∀ i, t.Covers i → LetterAt source i
  before : ∀ i : Nat, t.start = i + 1 → ¬ LetterAt source i
  after : ∀ i : Nat, t.stop = i → ¬ LetterAt source i
  isLet : t.type = .letWord ↔ t.span.slice source = "let"
  isFunction : t.type = .functionWord ↔ t.span.slice source = "function"
  isIdentifier : t.type = .identifier ↔
    t.span.slice source ≠ "let" ∧ t.span.slice source ≠ "function"

end Token

/-- The tokens stand in the source one behind the other, with its text as values. They cover the
characters that belong to tokens, and each is a symbol or a word. -/
structure IsTokenization (source : String) (ts : List Token) : Prop where
  within : ∀ t ∈ ts, 0 ≤ t.start ∧ t.stop ≤ source.length
  ordered : Token.Ordered ts
  value : ∀ t ∈ ts, t.value = some (t.span.slice source)
  covers : ∀ i c, source.toList[i]? = some c → ((∃ t ∈ ts, t.Covers i) ↔ IsTokenCharacter c)
  sort : ∀ t ∈ ts, t.IsSymbolIn source ∨ t.IsWordIn source

theorem TokenType.mem_symbols_iff {c : Char} {type : TokenType} :
    (c, type) ∈ symbols ↔ ofSymbol? c = some type := by
  unfold symbols
  constructor
  · intro h
    simp only [List.mem_cons, List.not_mem_nil, or_false, Prod.mk.injEq] at h
    rcases h with ⟨rfl, rfl⟩ | ⟨rfl, rfl⟩ | ⟨rfl, rfl⟩ | ⟨rfl, rfl⟩ | ⟨rfl, rfl⟩ <;> rfl
  · intro h
    unfold ofSymbol? at h
    split at h <;> cases h <;> simp

/-- Letters and symbols belong to tokens, and nothing else. -/
theorem isTokenCharacter_iff {c : Char} :
    IsTokenCharacter c ↔ isLetter c = true ∨ ∃ type, TokenType.ofSymbol? c = some type := by
  rw [IsTokenCharacter, isLetter, ← Option.ne_none_iff_exists', ne_eq,
    TokenType.ofSymbol?_eq_none_iff, not_not]

/-! ## There is at most one -/

namespace Token

variable {source : String} {t u : Token} {i : Nat}

theorem IsSymbolIn.start_eq (h : t.IsSymbolIn source) (hi : t.Covers i) : t.start = i := by
  have hstop := h.stop
  unfold Covers at hi
  omega

theorem IsSymbolIn.exists_symbol (h : t.IsSymbolIn source) (hi : t.Covers i) :
    ∃ c, source.toList[i]? = some c ∧ TokenType.ofSymbol? c = some t.type := by
  obtain ⟨j, c, hj, hc, htype⟩ := h.type
  obtain rfl : i = j := by have hstart := h.start_eq hi; omega
  exact ⟨c, hc, TokenType.mem_symbols_iff.1 htype⟩

-- A symbol and a word have no offset in common.
theorem IsSymbolIn.not_letterAt (h : t.IsSymbolIn source) (hi : t.Covers i) :
    ¬ LetterAt source i := by
  obtain ⟨c, hc, hsymbol⟩ := h.exists_symbol hi
  intro hletter
  obtain ⟨d, hd, hd'⟩ := hletter
  obtain rfl := Option.some.inj (hc.symm.trans hd)
  have hnot := TokenType.isLetter_of_ofSymbol? hsymbol
  rw [isLetter, hd'] at hnot
  cases hnot

-- Of two words with an offset in common, neither goes further than the other.
theorem IsWordIn.start_le (ht : t.IsWordIn source) (hu : u.IsWordIn source) (hti : t.Covers i)
    (hui : u.Covers i) (hstart : 0 ≤ t.start) : u.start ≤ t.start := by
  unfold Covers at hti hui
  by_contra hlt
  have hletter : LetterAt source (u.start - 1).toNat := by
    apply ht.letters
    unfold Covers
    omega
  apply hu.before _ _ hletter
  omega

/-- Two words that share a character end together. -/
theorem IsWordIn.stop_le (ht : t.IsWordIn source) (hu : u.IsWordIn source) (hti : t.Covers i)
    (hui : u.Covers i) : t.stop ≤ u.stop := by
  unfold Covers at hti hui
  by_contra hlt
  have hletter : LetterAt source u.stop.toNat := by
    apply ht.letters
    unfold Covers
    omega
  apply hu.after _ _ hletter
  omega

/-- The place of a word decides its type. -/
theorem IsWordIn.type_eq (ht : t.IsWordIn source) (hu : u.IsWordIn source)
    (hspan : t.span = u.span) : t.type = u.type := by
  by_cases hlet : t.span.slice source = "let"
  · rw [ht.isLet.2 hlet, hu.isLet.2 (hspan ▸ hlet)]
  · by_cases hfunction : t.span.slice source = "function"
    · rw [ht.isFunction.2 hfunction, hu.isFunction.2 (hspan ▸ hfunction)]
    · rw [ht.isIdentifier.2 ⟨hlet, hfunction⟩, hu.isIdentifier.2 (hspan ▸ ⟨hlet, hfunction⟩)]

end Token

namespace IsTokenization

variable {source : String} {ts us : List Token}

/-- Tokens that have an offset in common are the same. -/
theorem eq_of_covers (hts : IsTokenization source ts) (hus : IsTokenization source us) {t u : Token}
    (ht : t ∈ ts) (hu : u ∈ us) {i : Nat} (hti : t.Covers i) (hui : u.Covers i) : t = u := by
  have hsame : t.span = u.span ∧ t.type = u.type := by
    -- A character is a letter or a symbol, so both tokens are of one sort.
    rcases hts.sort t ht with htsymbol | htword
    · rcases hus.sort u hu with husymbol | huword
      · have hstart := htsymbol.start_eq hti
        have hstart' := husymbol.start_eq hui
        have hspan : t.span = u.span := by
          rw [Token.span, Token.span, htsymbol.stop, husymbol.stop, hstart, hstart']
        obtain ⟨c, hc, htype⟩ := htsymbol.exists_symbol hti
        obtain ⟨d, hd, htype'⟩ := husymbol.exists_symbol hui
        obtain rfl := Option.some.inj (hc.symm.trans hd)
        exact ⟨hspan, Option.some.inj (htype.symm.trans htype')⟩
      · exact absurd (huword.letters i hui) (htsymbol.not_letterAt hti)
    · rcases hus.sort u hu with husymbol | huword
      · exact absurd (htword.letters i hti) (husymbol.not_letterAt hui)
      · have hstart := Int.le_antisymm
          (huword.start_le htword hui hti (hus.within u hu).1)
          (htword.start_le huword hti hui (hts.within t ht).1)
        have hstop := Int.le_antisymm (htword.stop_le huword hti hui)
          (huword.stop_le htword hui hti)
        have hspan : t.span = u.span := by rw [Token.span, Token.span, hstart, hstop]
        exact ⟨hspan, htword.type_eq huword hspan⟩
  have hvalue : t.value = u.value := by
    rw [hts.value t ht, hus.value u hu, hsame.1]
  cases t
  cases u
  simp_all [Token.span]

-- The offset where a token starts is covered in any other list too.
theorem subset (hts : IsTokenization source ts) (hus : IsTokenization source us) : ts ⊆ us := by
  intro t ht
  have hin := hts.within t ht
  have hlt := hts.ordered.start_lt_stop t ht
  have hcovers : t.Covers t.start.toNat := by
    unfold Token.Covers
    omega
  have hlength : t.start.toNat < source.toList.length := by
    rw [String.length_toList]
    omega
  have hget := List.getElem?_eq_getElem hlength
  obtain ⟨u, hu, hcovers'⟩ :=
    (hus.covers _ _ hget).2 ((hts.covers _ _ hget).1 ⟨t, ht, hcovers⟩)
  rw [hts.eq_of_covers hus ht hu hcovers hcovers']
  exact hu

end IsTokenization

-- Ordered lists of the same tokens are equal.
theorem Token.Ordered.eq_of_subset {ts us : List Token} (hts : Token.Ordered ts)
    (hus : Token.Ordered us) (h : ts ⊆ us) (h' : us ⊆ ts) : ts = us := by
  have hstart {l : List Token} (hl : Token.Ordered l) :
      l.Pairwise fun t u => t.start < u.start :=
    hl.apart.imp_of_mem fun ht _ hle => Int.lt_of_lt_of_le (hl.start_lt_stop _ ht) hle
  have hirrefl : Std.Irrefl fun t u : Token => t.start < u.start := ⟨fun t => Int.lt_irrefl t.start⟩
  have hantisymm : Std.Antisymm fun t u : Token => t.start < u.start :=
    ⟨fun t u h h' => absurd h' (Int.lt_asymm h)⟩
  exact List.Subset.antisymm_of_pairwise (hstart hts) (hstart hus) h h'

/-- A source has one tokenization at most. -/
theorem IsTokenization.unique {source : String} {ts us : List Token}
    (hts : IsTokenization source ts) (hus : IsTokenization source us) : ts = us :=
  hts.ordered.eq_of_subset hus.ordered (hts.subset hus) (hus.subset hts)

/-! ## There is one -/

section Laid

variable {strict : Bool} {pos : Nat} {ts : List Token} {cs : List Char}

theorem IsGap.not_isTokenCharacter {gap : List Char} (h : IsGap strict gap) {c : Char}
    (hc : c ∈ gap) : ¬ IsTokenCharacter c := by
  have hcharacter := h c hc
  unfold IsTokenCharacter
  cases strict with
  | true =>
    obtain rfl : c = ' ' := hcharacter
    decide
  | false =>
    obtain ⟨hletter, hsymbol⟩ : ¬ c.isAlpha ∧ c ∉ ['(', ')', '\x7b', '\x7d', '='] := hcharacter
    exact not_or.2 ⟨hletter, hsymbol⟩

theorem TokenType.isTokenCharacter_of_writes {type : TokenType} {w : List Char}
    (h : type.Writes w) {c : Char} (hc : c ∈ w) : IsTokenCharacter c := by
  rw [isTokenCharacter_iff]
  cases hword : type.isWord with
  | true => exact .inl ((letters_of_writes hword h).2 c hc)
  | false =>
    obtain ⟨d, rfl, hd⟩ := symbol_of_writes hword h
    obtain rfl := List.mem_singleton.1 hc
    exact .inr ⟨type, hd⟩

def CoversFrom (pos : Nat) (ts : List Token) (cs : List Char) : Prop :=
  ∀ i c, cs[i]? = some c → ((∃ t ∈ ts, t.Covers (pos + i)) ↔ IsTokenCharacter c)

-- No token covers a gap in front of them.
theorem CoversFrom.gap_append {gap : List Char} (hgap : IsGap strict gap)
    (hrest : LaidFrom strict (pos + gap.length) ts cs)
    (h : CoversFrom (pos + gap.length) ts cs) : CoversFrom pos ts (gap ++ cs) := by
  intro i c hc
  by_cases hi : i < gap.length
  · rw [List.getElem?_append_left hi] at hc
    have hno : ¬ ∃ t ∈ ts, t.Covers (pos + i) := by
      rintro ⟨t, ht, hcovers⟩
      have hstart := (hrest.within t ht).1
      unfold Token.Covers at hcovers
      omega
    exact iff_of_false hno (hgap.not_isTokenCharacter (List.mem_of_getElem? hc))
  · rw [List.getElem?_append_right (by omega)] at hc
    have hi' : pos + gap.length + (i - gap.length) = pos + i := by omega
    rw [← hi']
    exact h _ c hc

/-- The words from which a text is laid out are all that belongs to tokens. -/
theorem LaidFrom.coversFrom (h : LaidFrom strict pos ts cs) : CoversFrom pos ts cs := by
  induction h with
  | nil =>
    intro i c hc
    cases hc
  | @cons pos t ts w gap rest ht hgap _ hrest ih =>
    have hlater := ih.gap_append hgap hrest
    intro i c hc
    -- A character is in the first word or behind it, and the gap has none that belong to tokens.
    by_cases hi : i < w.length
    · rw [List.getElem?_append_left hi] at hc
      have hcovers : t.Covers (pos + i) := by
        unfold Token.Covers
        rw [ht.start, ht.stop]
        omega
      exact iff_of_true ⟨t, List.mem_cons_self, hcovers⟩
        (TokenType.isTokenCharacter_of_writes ht.writes (List.mem_of_getElem? hc))
    · rw [List.getElem?_append_right (by omega)] at hc
      have hi' : pos + w.length + (i - w.length) = pos + i := by omega
      have hno : ¬ t.Covers (pos + i) := by
        unfold Token.Covers
        rw [ht.stop]
        omega
      rw [← hlater _ c hc, hi', List.exists_mem_cons_iff]
      exact or_iff_right hno

theorem Laid.covers {source : String} (h : Laid strict ts source) :
    ∀ i c, source.toList[i]? = some c → ((∃ t ∈ ts, t.Covers i) ↔ IsTokenCharacter c) := by
  obtain ⟨gap, rest, hgap, hsource, hrest⟩ := h
  have hcovers := hrest.coversFrom.gap_append hgap hrest
  rw [hsource]
  intro i c hc
  rw [← hcovers i c hc, Nat.zero_add]

-- No two types of words are written the same.
theorem TokenType.eq_of_writes {type type' : TokenType} {w : List Char} (hword : type.isWord = true)
    (hword' : type'.isWord = true) (h : type.Writes w) (h' : type'.Writes w) : type = type' := by
  obtain ⟨hne, hletters⟩ := letters_of_writes hword h
  rw [← (ofWord_eq_iff hne hletters).2 ⟨hword, h⟩, (ofWord_eq_iff hne hletters).2 ⟨hword', h'⟩]

variable {t : Token} {source : String} {left text right : List Char}

/-- A symbol that is cut out is one of the source. -/
theorem Cut.isSymbolIn (h : Cut strict [t] source.toList left text right)
    (hword : t.type.isWord = false) : t.IsSymbolIn source := by
  have hw := h.writtenAs
  obtain ⟨c, rfl, hc⟩ := TokenType.symbol_of_writes hword hw.writes
  refine ⟨?_, left.length, c, hw.start, ?_, TokenType.mem_symbols_iff.2 hc⟩
  · rw [hw.stop, hw.start]
    rfl
  · rw [h.source, List.getElem?_append_right (Nat.le_refl _), Nat.sub_self]
    rfl

-- The characters before, in and after a token.
theorem Cut.letterAt_iff (h : Cut strict [t] source.toList left text right) {i : Nat} :
    LetterAt source i ↔ ∃ c ∈ (left ++ (text ++ right))[i]?, isLetter c = true := by
  unfold LetterAt
  rw [h.source]
  rfl

/-- A word that is cut out stands by itself in the source. -/
theorem Cut.isWordIn (h : Cut strict [t] source.toList left text right)
    (hword : t.type.isWord = true) : t.IsWordIn source := by
  have hw := h.writtenAs
  have hslice : t.span.slice source = String.ofList text := h.slice_eq ⟨rfl, rfl⟩
  obtain ⟨hne, hletters⟩ := TokenType.letters_of_writes hword hw.writes
  have hedge : ∀ u : Token, some t = some u → u.type.isWord = true := by
    rintro u ⟨⟩
    exact hword
  have hlet : t.span.slice source = "let" ↔ text = ['l', 'e', 't'] := by
    rw [hslice]
    exact String.ofList_inj
  have hfunction : t.span.slice source = "function" ↔
      text = ['f', 'u', 'n', 'c', 't', 'i', 'o', 'n'] := by
    rw [hslice]
    exact String.ofList_inj
  have htype {type : TokenType} (htype : type.isWord = true) : t.type = type ↔ type.Writes text :=
    ⟨fun heq => heq ▸ hw.writes, TokenType.eq_of_writes hword htype hw.writes⟩
  refine ⟨fun i hi => ?_, fun i hi => ?_, fun i hi => ?_, ?_, ?_, ?_⟩
  -- Inside the span there are letters.
  · unfold Token.Covers at hi
    rw [hw.start, hw.stop] at hi
    have hlt : i - left.length < text.length := by omega
    rw [h.letterAt_iff, List.getElem?_append_right (by omega), List.getElem?_append_left hlt,
      List.getElem?_eq_getElem hlt]
    exact ⟨_, rfl, hletters _ (List.getElem_mem hlt)⟩
  -- No letter stands right before the span, or the word would start earlier.
  · rw [hw.start] at hi
    have hlast : left[i]? = left.reverse.head? := by
      rw [List.head?_reverse, List.getLast?_eq_getElem?]
      congr 1
      omega
    rw [h.letterAt_iff, List.getElem?_append_left (by omega), hlast]
    rintro ⟨c, hc, hletter⟩
    rw [h.left hedge c hc] at hletter
    cases hletter
  -- No letter stands right behind it, or the word would go on.
  · rw [hw.stop] at hi
    have hfirst : (left ++ (text ++ right))[i]? = right.head? := by
      rw [List.getElem?_append_right (by omega), List.getElem?_append_right (by omega),
        List.head?_eq_getElem?]
      congr 1
      omega
    rw [h.letterAt_iff, hfirst]
    rintro ⟨c, hc, hletter⟩
    rw [h.right hedge c hc] at hletter
    cases hletter
  · rw [hlet]
    exact htype rfl
  · rw [hfunction]
    exact htype rfl
  · rw [ne_eq, ne_eq, hlet, hfunction, htype rfl]
    exact ⟨fun hwrites => hwrites.2.2, fun hother => ⟨hne, hletters, hother⟩⟩

/-- The tokens that a text is laid out in are told by their places. -/
theorem Laid.isTokenization (h : Laid strict ts source) : IsTokenization source ts := by
  have hcut : ∀ t ∈ ts, ∃ left text right, Cut strict [t] source.toList left text right :=
    fun t ht => h.exists_cut ((List.singleton_infix_iff t ts).2 ht) (List.cons_ne_nil t [])
  refine ⟨h.within, h.ordered, fun t ht => ?_, h.covers, fun t ht => ?_⟩
  · obtain ⟨left, text, right, hcut⟩ := hcut t ht
    rw [hcut.slice_eq ⟨rfl, rfl⟩]
    exact hcut.writtenAs.value
  · obtain ⟨left, text, right, hcut⟩ := hcut t ht
    cases hword : t.type.isWord with
    | true => exact .inr (hcut.isWordIn hword)
    | false => exact .inl (hcut.isSymbolIn hword)

end Laid

/-! ## The scanner finds it -/

theorem Token.exists_ofSeparator (pos : Nat) (c : Char) :
    ∃ here, ofSeparator false pos c = .ok here := by
  unfold ofSeparator
  split
  · exact ⟨_, rfl⟩
  · exact ⟨_, rfl⟩

-- Only strict scanning fails.
theorem Token.exists_scanFrom (pos : Nat) (word cs : List Char) :
    ∃ ts, scanFrom false pos word cs = .ok ts := by
  induction cs generalizing pos word with
  | nil => exact ⟨_, rfl⟩
  | cons c cs ih =>
    rw [scanFrom]
    split
    · exact ih _ _
    · obtain ⟨here, hhere⟩ := exists_ofSeparator pos c
      obtain ⟨later, hlater⟩ := ih (pos + 1) []
      rw [hhere, hlater]
      exact ⟨_, rfl⟩

/-- Every text has tokens, which the scanner returns, and they are the only list that covers the
letters and symbols of the text with symbols and whole words. -/
theorem tokenize_isTokenization_and_unique (source : String) :
    ∃ ts, tokenize source false = .ok ts ∧ IsTokenization source ts ∧
      ∀ us, IsTokenization source us → us = ts := by
  obtain ⟨ts, hts⟩ := Token.exists_scanFrom 0 [] source.toList
  have htokens : tokenize source false = .ok ts := hts
  have hts := (tokenize_eq_ok_iff.1 htokens).isTokenization
  exact ⟨ts, htokens, hts, fun us hus => hus.unique hts⟩

-- A keyword is one only as a whole word, and a character that belongs to no token ends a word.
example : tokenize "letlet=l-t(let" false = .ok
    [⟨.identifier, some "letlet", 0, 6⟩, ⟨.assign, some "=", 6, 7⟩, ⟨.identifier, some "l", 7, 8⟩,
      ⟨.identifier, some "t", 9, 10⟩, ⟨.leftParen, some "(", 10, 11⟩,
      ⟨.letWord, some "let", 11, 14⟩] := by
  decide +kernel

end LetFun
