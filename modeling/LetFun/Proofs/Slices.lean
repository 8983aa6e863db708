import LetFun.Proofs.Ranges
import LetFun.Proofs.Scanning
/-!
# The text that a range of tokens stands for

Every range of the tokens of a text stands for a part of it that starts with the first token of the
range and ends with the last (`Laid.exists_cut`). No word goes on across the edges of the part, so
that it is laid out in the tokens of the range wherever it stands.
-/

namespace LetFun

def Span.slice (s : Span) (source : String) : String :=
  String.ofList (source.toList.extract s.start.toNat s.stop.toNat)

theorem StopsWord.append {l : List Char} (h : StopsWord l) (hl : l ≠ []) (more : List Char) :
    StopsWord (l ++ more) := by
  unfold StopsWord
  rwa [List.head?_append_of_ne_nil l hl]

variable {strict : Bool} {pos : Nat} {ts q b : List Token} {cs : List Char}

/-! ## Offsets -/

theorem TokenType.ne_nil_of_writes {type : TokenType} {w : List Char} (h : type.Writes w) :
    w ≠ [] := by
  cases hword : type.isWord with
  | true => exact (letters_of_writes hword h).1
  | false =>
    obtain ⟨c, rfl, _⟩ := symbol_of_writes hword h
    exact List.cons_ne_nil c []

theorem Token.WrittenAs.start_lt_stop {t : Token} {w : List Char} (h : t.WrittenAs pos w) :
    t.start < t.stop := by
  have hlength := List.length_pos_iff.2 (TokenType.ne_nil_of_writes h.writes)
  rw [h.start, h.stop]
  omega

theorem LaidFrom.within (h : LaidFrom strict pos ts cs) :
    ∀ t ∈ ts, (pos : Int) ≤ t.start ∧ t.stop ≤ pos + cs.length := by
  induction h with
  | nil => exact fun _ h => (nomatch h)
  | cons ht _ _ _ ih =>
    intro u hu
    rw [List.length_append, List.length_append]
    rcases List.mem_cons.1 hu with rfl | hu
    · rw [ht.start, ht.stop]
      omega
    · have hrest := ih u hu
      omega

/-- Tokens of a text come one after the other. -/
theorem LaidFrom.ordered (h : LaidFrom strict pos ts cs) : Token.Ordered ts := by
  induction h with
  | nil => exact ⟨fun _ h => (nomatch h), .nil⟩
  | cons ht _ _ hrest ih =>
    refine ⟨List.forall_mem_cons.2 ⟨ht.start_lt_stop, ih.start_lt_stop⟩, .cons ?_ ih.apart⟩
    intro u hu
    have hstart := (hrest.within u hu).1
    rw [ht.stop]
    omega

theorem LaidFrom.text_ne_nil (h : LaidFrom strict pos ts cs) (hts : ts ≠ []) : cs ≠ [] := by
  rintro rfl
  cases ts with
  | nil => exact hts rfl
  | cons t ts =>
    have hlt := h.ordered.start_lt_stop t List.mem_cons_self
    have hin := h.within t List.mem_cons_self
    rw [List.length_nil] at hin
    omega

theorem Laid.within {source : String} (h : Laid strict ts source) :
    ∀ t ∈ ts, 0 ≤ t.start ∧ t.stop ≤ source.length := by
  obtain ⟨gap, cs, -, hsource, h⟩ := h
  intro t ht
  have hin := h.within t ht
  have hlength : source.length = gap.length + cs.length := by
    rw [← String.length_toList, hsource, List.length_append]
  omega

theorem Laid.ordered {source : String} (h : Laid strict ts source) : Token.Ordered ts := by
  obtain ⟨_, _, -, -, h⟩ := h
  exact h.ordered

/-! ## Cutting a text between tokens -/

theorem LaidFrom.singleton {t : Token} {w gap : List Char} (ht : t.WrittenAs pos w)
    (hgap : IsGap strict gap) : LaidFrom strict pos [t] (w ++ gap) := by
  have halone : ∀ u ∈ ([] : List Token).head?, u.type.isWord = false := fun _ h => (nomatch h)
  have hlaid := LaidFrom.cons ht hgap (fun _ _ => halone) .nil
  rwa [List.append_nil] at hlaid

/-- A text that starts with the first token, at offset `pos`, and ends with the last. -/
structure LaidTight (strict : Bool) (pos : Nat) (ts : List Token) (text : List Char) : Prop where
  laid : LaidFrom strict pos ts text
  stop : ts.getLast?.map (·.stop) = some ((pos : Int) + text.length)

theorem LaidTight.ne_nil (h : LaidTight strict pos ts cs) : ts ≠ [] := by
  rintro rfl
  cases h.stop

theorem LaidTight.singleton {t : Token} {w : List Char} (ht : t.WrittenAs pos w) :
    LaidTight strict pos [t] w := by
  have hlaid := LaidFrom.singleton ht (.nil : IsGap strict [])
  rw [List.append_nil] at hlaid
  exact ⟨hlaid, congrArg some ht.stop⟩

/-- Where these tokens meet, they are not both words. -/
def Apart (q b : List Token) : Prop :=
  ∀ t ∈ q.getLast?, ∀ u ∈ b.head?, t.type.isWord = true → u.type.isWord = false

-- The text of the first tokens can be told from the rest, and from the gap before the rest. The gap
-- may be empty unless it is between two words.
theorem LaidFrom.cut (h : LaidFrom strict pos (q ++ b) cs) (hq : q ≠ []) :
    ∃ text gap rest, cs = text ++ (gap ++ rest) ∧ LaidTight strict pos q text ∧ IsGap strict gap ∧
      LaidFrom strict (pos + text.length + gap.length) b rest ∧ (gap = [] → Apart q b) := by
  induction q generalizing pos cs with
  | nil => exact absurd rfl hq
  | cons t q ih =>
    cases h with
    | @cons _ _ _ w gap rest ht hgap hapart hrest =>
      -- The gap behind the last token of the range belongs to neither side.
      cases q with
      | nil =>
        refine ⟨w, gap, rest, rfl, .singleton ht, hgap, hrest, fun hnil t' ht' u hu hword => ?_⟩
        cases ht'
        exact hapart hnil hword u hu
      | cons u q =>
        obtain ⟨text, gap', rest', rfl, htext, hgap', hrest', hapart'⟩ :=
          ih hrest (List.cons_ne_nil u q)
        refine ⟨w ++ (gap ++ text), gap', rest', by simp, ⟨.cons ht hgap hapart htext.laid, ?_⟩,
          hgap', ?_, hapart'⟩
        · rw [List.getLast?_cons_cons, htext.stop]
          simp [Int.add_assoc]
        · rwa [List.length_append, List.length_append, ← Nat.add_assoc, ← Nat.add_assoc]

theorem IsGap.stopsWord_reverse {gap : List Char} (hgap : IsGap strict gap) {before : List Char}
    (h : gap = [] → StopsWord before.reverse) : StopsWord (before ++ gap).reverse := by
  rw [List.reverse_append]
  cases hr : gap.reverse with
  | nil => exact h (List.reverse_eq_nil_iff.1 hr)
  | cons c r =>
    have hreverse : IsGap strict (c :: r) := fun d hd => hgap d (List.mem_reverse.1 (hr ▸ hd))
    exact hreverse.stopsWord before.reverse

-- A text does not end with a letter if its last token is no word.
theorem LaidFrom.stopsWord_reverse (h : LaidFrom strict pos ts cs)
    (hlast : ∀ t ∈ ts.getLast?, t.type.isWord = false) : StopsWord cs.reverse := by
  induction h with
  | nil => exact .nil
  | @cons pos t ts w gap rest ht hgap _ hrest ih =>
    cases ts with
    | nil =>
      cases hrest
      obtain ⟨c, rfl, hc⟩ := TokenType.symbol_of_writes (hlast t rfl) ht.writes
      rw [List.append_nil]
      refine hgap.stopsWord_reverse fun _ d hd => ?_
      cases hd
      exact TokenType.isLetter_of_ofSymbol? hc
    | cons u ts =>
      rw [List.getLast?_cons_cons] at hlast
      have hrest' := hrest.text_ne_nil (List.cons_ne_nil u ts)
      rw [← List.append_assoc, List.reverse_append]
      exact (ih hlast).append (by simpa using hrest') _

/-- The part of a source that a range of tokens stands for. A word at an edge of the part does not
go on across the edge. -/
structure Cut (strict : Bool) (q : List Token) (source left text right : List Char) : Prop where
  source : source = left ++ (text ++ right)
  text : LaidTight strict left.length q text
  left : (∀ t ∈ q.head?, t.type.isWord = true) → StopsWord left.reverse
  right : (∀ t ∈ q.getLast?, t.type.isWord = true) → StopsWord right

/-- The text of a range of tokens can be cut out behind the text before it. -/
theorem Cut.of_laidFrom {left : List Char} (h : LaidFrom strict left.length (q ++ b) cs)
    (hq : q ≠ []) (hleft : (∀ t ∈ q.head?, t.type.isWord = true) → StopsWord left.reverse) :
    ∃ text right, Cut strict q (left ++ cs) left text right := by
  obtain ⟨text, gap, rest, rfl, htext, hgap, hrest, hapart⟩ := h.cut hq
  refine ⟨text, gap ++ rest, rfl, htext, hleft, fun hword => ?_⟩
  have hlast := List.getLast?_eq_some_getLast hq
  exact Token.stopsWord_of_laidFrom hgap hrest fun hnil u hu =>
    hapart hnil _ hlast u hu (hword _ hlast)

/-- Every range of tokens has a part of the source. -/
theorem Laid.exists_cut {source : String} (h : Laid strict ts source) (hq : q <:+: ts)
    (hne : q ≠ []) : ∃ left text right, Cut strict q source.toList left text right := by
  obtain ⟨gap, cs, hgap, hsource, h⟩ := h
  obtain ⟨a, b, rfl⟩ := hq
  rw [Nat.zero_add, List.append_assoc] at h
  rw [hsource]
  by_cases ha : a = []
  · rw [ha, List.nil_append] at h
    have hleft : StopsWord ([] ++ gap).reverse := hgap.stopsWord_reverse fun _ => .nil
    exact ⟨gap, Cut.of_laidFrom h hne fun _ => hleft⟩
  · -- The tokens before the range are cut off first. What they end with decides whether a word at
    -- the edge of the range could go on to the left.
    obtain ⟨text, gap', rest, rfl, htext, hgap', hrest, hapart⟩ := h.cut ha
    rw [Nat.add_assoc, ← List.length_append, ← List.length_append, ← List.append_assoc] at hrest
    have hhead : (q ++ b).head? = some (q.head hne) := by
      rw [List.head?_append_of_ne_nil q hne, List.head?_eq_some_head]
    have hlast (hword : (q.head hne).type.isWord = true) (hnil : gap' = []) :
        ∀ t ∈ a.getLast?, t.type.isWord = false := by
      intro t ht
      cases htword : t.type.isWord with
      | false => rfl
      | true =>
        have hsymbol := hapart hnil t ht _ hhead htword
        rw [hword] at hsymbol
        cases hsymbol
    refine ⟨gap ++ text ++ gap', ?_⟩
    have hcut := Cut.of_laidFrom hrest hne fun hword => hgap'.stopsWord_reverse fun hnil => ?_
    · simpa using hcut
    · have htext' := htext.laid.text_ne_nil ha
      rw [List.reverse_append]
      exact (htext.laid.stopsWord_reverse
        (hlast (hword _ (List.head?_eq_some_head hne)) hnil)).append (by simpa using htext') _

theorem Node.SpelledBy.ne_nil {n : Node} (h : n.SpelledBy q) (htype : n.type ≠ .program) :
    q ≠ [] := by
  rintro rfl
  cases (h.bounds htype).start

/-- Every node below a root stands for a part of the text that the root is laid out in. -/
theorem Node.SpelledBy.exists_cut {n m : Node} {source : String} (h : n.SpelledBy ts)
    (hlaid : Laid strict ts source) (hm : m ∈ n.walk) (hne : m ≠ n) :
    ∃ q left text right, Cut strict q source.toList left text right ∧ m.SpelledBy q ∧
      m.type ≠ .program := by
  rcases h.of_mem_walk hm with rfl | ⟨htype, q, hq, hspelled⟩
  · exact absurd rfl hne
  · obtain ⟨left, text, right, hcut⟩ := hlaid.exists_cut hq (hspelled.ne_nil htype)
    exact ⟨q, left, text, right, hcut, hspelled, htype⟩

namespace Cut

variable {source : String} {left text right : List Char} {s : Span}

-- The span of the tokens is where their text stands in the source.
theorem span_eq (h : Cut strict q source.toList left text right) (hs : s.Bounds q) :
    s.start = left.length ∧ s.stop = left.length + text.length := by
  have hstop := Option.some.inj (hs.stop.symm.trans h.text.stop)
  obtain ⟨t, ht, hstart⟩ := Option.map_eq_some_iff.1 hs.start
  obtain ⟨q, rfl⟩ := List.head?_eq_some_iff.1 ht
  refine ⟨?_, hstop⟩
  cases h.text.laid with
  | cons ht => rw [← hstart, ht.start]

/-- The characters in the span of a cut are its text. -/
theorem slice_eq (h : Cut strict q source.toList left text right) (hs : s.Bounds q) :
    s.slice source = String.ofList text := by
  obtain ⟨hstart, hstop⟩ := h.span_eq hs
  rw [Span.slice, hstart, hstop, ← Int.natCast_add, Int.toNat_natCast, Int.toNat_natCast, h.source,
    List.extract_eq_take_drop, List.drop_left, Nat.add_sub_cancel_left, List.take_left]

theorem take_start (h : Cut strict q source.toList left text right) (hs : s.Bounds q) :
    source.toList.take s.start.toNat = left := by
  rw [(h.span_eq hs).1, Int.toNat_natCast, h.source, List.take_left]

theorem drop_stop (h : Cut strict q source.toList left text right) (hs : s.Bounds q) :
    source.toList.drop s.stop.toNat = right := by
  rw [(h.span_eq hs).2, ← Int.natCast_add, Int.toNat_natCast, h.source, ← List.append_assoc,
    ← List.length_append, List.drop_left]

/-- The span of a cut lies in the source and is not empty. -/
theorem within (h : Cut strict q source.toList left text right) (hs : s.Bounds q) :
    0 ≤ s.start ∧ s.start < s.stop ∧ s.stop ≤ source.length := by
  obtain ⟨hstart, hstop⟩ := h.span_eq hs
  have hpositive := List.length_pos_iff.2 (h.text.laid.text_ne_nil h.text.ne_nil)
  have hlength : source.length = left.length + (text.length + right.length) := by
    rw [← String.length_toList, h.source, List.length_append, List.length_append]
  omega

end Cut

/-! ## The ends of a text -/

theorem LaidFrom.starts {t : Token} (h : LaidFrom strict pos (t :: ts) cs) :
    ∃ w, t.WrittenAs pos w ∧ w <+: cs := by
  cases h with
  | cons ht => exact ⟨_, ht, List.prefix_append _ _⟩

-- What a single token stands for is its word.
theorem Cut.writtenAs {t : Token} {source left text right : List Char}
    (h : Cut strict [t] source left text right) : t.WrittenAs left.length text := by
  obtain ⟨w, hw, hprefix⟩ := h.text.laid.starts
  have hlength : w.length = text.length := by
    have hstop : t.stop = left.length + text.length := Option.some.inj h.text.stop
    rw [hw.stop] at hstop
    omega
  obtain rfl := hprefix.eq_of_length hlength
  exact hw

/-- A text may be followed by a gap. -/
theorem LaidFrom.append_gap (h : LaidFrom strict pos ts cs) (hts : ts ≠ []) {gap : List Char}
    (hgap : IsGap strict gap) : LaidFrom strict pos ts (cs ++ gap) := by
  induction h with
  | nil => exact absurd rfl hts
  | @cons pos t ts w gap' rest ht hgap' hapart hrest ih =>
    rw [List.append_assoc, List.append_assoc]
    cases ts with
    | nil =>
      cases hrest
      exact .singleton ht (IsGap.append.2 ⟨hgap', hgap⟩)
    | cons u ts => exact .cons ht hgap' hapart (ih (List.cons_ne_nil u ts))

-- A text ends with its last token, and what comes before that is laid out in the others.
theorem LaidTight.ends {t : Token} (h : LaidTight strict pos (q ++ [t]) cs) (hq : q ≠ []) :
    ∃ front w, cs = front ++ w ∧ t.type.Writes w ∧ LaidFrom strict pos q front := by
  obtain ⟨text, gap, rest, rfl, htext, hgap, hrest, _⟩ := h.laid.cut hq
  cases hrest with
  | @cons _ _ _ w gap' _ ht _ _ hnil =>
    cases hnil
    have hlength : gap' = [] := by
      have hstop := h.stop
      rw [List.getLast?_concat, Option.map_some, ht.stop] at hstop
      simp only [List.length_append, List.length_nil, Option.some.injEq] at hstop
      exact List.length_eq_zero_iff.1 (by omega)
    refine ⟨text ++ gap, w, ?_, ht.writes, htext.laid.append_gap hq hgap⟩
    rw [hlength, List.append_nil, List.append_nil, List.append_assoc]

/-! ## Counting symbols -/

-- A prefix that is longer than the first part is the first part and a prefix of the second.
theorem prefix_append_cases {α : Type} {p l m : List α} (h : p <+: l ++ m) :
    p <+: l ∨ ∃ q, q <+: m ∧ p = l ++ q := by
  rcases List.prefix_or_prefix_of_prefix h (List.prefix_append l m) with hp | ⟨q, rfl⟩
  · exact .inl hp
  · exact .inr ⟨q, (List.prefix_append_right_inj l).1 h, rfl⟩

-- What is no word is written in one way.
theorem TokenType.writes_unique {type : TokenType} {w w' : List Char} (hword : type.isWord = false)
    (h : type.Writes w) (h' : type.Writes w') : w = w' := by
  cases type with
  | letWord | functionWord | identifier => cases hword
  | assign | leftParen | rightParen | leftCurly | rightCurly => exact Eq.trans h (Eq.symm h')

section Count

variable {c : Char} {symbol : TokenType} (hc : TokenType.ofSymbol? c = some symbol)
include hc

-- Letters are no symbols, and different symbols are written differently.
theorem TokenType.count_of_prefix {type : TokenType} {w p : List Char} (h : type.Writes w)
    (hp : p <+: w) (hne : p ≠ []) : p.count c = [type].count symbol := by
  obtain ⟨hsymbol, hwrites⟩ := ofSymbol?_eq_some_iff.1 hc
  cases hword : type.isWord with
  -- A word consists of letters, none of which is a symbol.
  | true =>
    have hnot : c ∉ w := by
      intro hmem
      have hletter := isLetter_of_ofSymbol? hc
      rw [isLetter, (letters_of_writes hword h).2 c hmem] at hletter
      cases hletter
    have hdiffers : type ≠ symbol := by
      rintro rfl
      rw [hword] at hsymbol
      cases hsymbol
    rw [List.count_eq_zero.2 fun hmem => hnot (hp.subset hmem), List.count_singleton,
      if_neg (by simpa using hdiffers)]
  | false =>
    obtain ⟨d, rfl, hd⟩ := symbol_of_writes hword h
    have hiff : d = c ↔ type = symbol := by
      constructor
      · rintro rfl
        exact Option.some.inj (hd.symm.trans hc)
      · rintro rfl
        exact (List.cons.inj (writes_unique hword h hwrites)).1
    rw [hp.eq_of_length_le (List.length_pos_iff.2 hne), List.count_singleton, List.count_singleton]
    simp [hiff]

/-- A symbol is found in a word as often as in its type. -/
theorem TokenType.count_of_writes {type : TokenType} {w : List Char} (h : type.Writes w) :
    w.count c = [type].count symbol :=
  count_of_prefix hc h List.prefix_rfl (ne_nil_of_writes h)

/-- There are no symbols in gaps. -/
theorem IsGap.count_eq {gap : List Char} (h : IsGap strict gap) : gap.count c = 0 := by
  refine List.count_eq_zero.2 fun hmem => ?_
  have hgap : IsGap strict [c] := fun d hd => h d (List.mem_singleton.1 hd ▸ hmem)
  rw [hgap.ofSymbol?] at hc
  cases hc

/-- A laid out text has the symbols of its tokens and no others. -/
theorem LaidFrom.count_eq (h : LaidFrom strict pos ts cs) :
    cs.count c = (Token.types ts).count symbol := by
  induction h with
  | nil => rfl
  | cons ht hgap _ _ ih =>
    rw [List.count_append, List.count_append, TokenType.count_of_writes hc ht.writes,
      hgap.count_eq hc, ih, Nat.zero_add, ← List.count_append]
    rfl

end Count

/-- However far a laid out text is read, the symbols so far are those of some of its first
tokens. -/
theorem LaidFrom.exists_prefix (h : LaidFrom strict pos ts cs) {p : List Char} (hp : p <+: cs) :
    ∃ r, r <+: ts ∧ (p ≠ [] → r ≠ []) ∧ ∀ c symbol, TokenType.ofSymbol? c = some symbol →
      p.count c = (Token.types r).count symbol := by
  induction h generalizing p with
  | nil =>
    rw [List.prefix_nil.1 hp]
    exact ⟨[], List.nil_prefix, fun h => absurd rfl h, fun _ _ _ => rfl⟩
  | @cons pos t ts w gap rest ht hgap _ _ ih =>
    have hfirst : [t] <+: t :: ts := List.prefix_append [t] ts
    -- The text ends in the first word, in the gap behind it, or further on.
    rcases prefix_append_cases hp with hp | ⟨p', hp', rfl⟩
    · by_cases hne : p = []
      · rw [hne]
        exact ⟨[], List.nil_prefix, fun h => absurd rfl h, fun _ _ _ => rfl⟩
      · exact ⟨[t], hfirst, fun _ => List.cons_ne_nil t [], fun c symbol hc =>
          TokenType.count_of_prefix hc ht.writes hp hne⟩
    rcases prefix_append_cases hp' with hp | ⟨later, hlater, rfl⟩
    · have hblank : IsGap strict p' := fun d hd => hgap d (hp.subset hd)
      refine ⟨[t], hfirst, fun _ => List.cons_ne_nil t [], fun c symbol hc => ?_⟩
      rw [List.count_append, hblank.count_eq hc, TokenType.count_of_writes hc ht.writes]
      rfl
    · obtain ⟨r, hr, -, hcount⟩ := ih hlater
      refine ⟨t :: r, List.cons_prefix_cons.2 ⟨rfl, hr⟩, fun _ => List.cons_ne_nil t r,
        fun c symbol hc => ?_⟩
      rw [List.count_append, List.count_append, hgap.count_eq hc, Nat.zero_add,
        TokenType.count_of_writes hc ht.writes, hcount c symbol hc, ← List.count_append]
      rfl

end LetFun
