import LetFun.Proofs.Grammar.State
import LetFun.Proofs.Layout
import LetFun.Proofs.Slices
/-!
# The spans of a tree and its source

In the tree of a source text every span cuts out the text of its node: a name, or a text from a
keyword or brace to the closing brace that belongs to it. Children lie within their parents, apart
from one another and in the order of the walk (`parseSource_spans`).
-/

namespace LetFun

open Grammar

/-! ## What the text of a node looks like -/

/-- An identifier is a whole word of the source, and none with a meaning of its own. -/
structure Identifier.IsWordOf (i : Identifier) (source : String) : Prop where
  text : i.span.slice source = i.name
  ne_empty : i.name ≠ ""
  letters : ∀ c ∈ i.name.toList, c.isAlpha
  ne_let : i.name ≠ "let"
  ne_function : i.name ≠ "function"
  before : ∀ c ∈ (source.toList.take i.span.start.toNat).getLast?, ¬ c.isAlpha
  after : ∀ c ∈ (source.toList.drop i.span.stop.toNat).head?, ¬ c.isAlpha

def IsClosed (opening : String) (text : List Char) : Prop :=
  opening.toList <+: text ∧ ['\x7d'] <:+ text

/-- A text from a brace to the one that matches it: no brace before closes what it opens. -/
structure IsBraced (text : List Char) : Prop where
  closed : IsClosed "\x7b" text
  balanced : text.count '\x7b' = text.count '\x7d'
  opened : ∀ p, p <+: text → p ≠ [] → p ≠ text → p.count '\x7d' < p.count '\x7b'

def Node.Reads (source : String) : Node → Prop
  | .program _ => True
  | .declaration d => IsClosed "let" (d.span.slice source).toList
  | .declarator d => IsClosed "let" (d.span.slice source).toList
  | .identifier i => i.IsWordOf source
  | .functionExpr f => IsClosed "function" (f.span.slice source).toList
  | .block b => IsBraced (b.span.slice source).toList

/-- The span of a node lies in the source and has the text of the node, and its children lie in it
one after the other. Only a program without declarations may have an empty span. -/
structure Node.WellPlaced (source : String) (n : Node) : Prop where
  start_nonneg : 0 ≤ n.span.start
  start_le_stop : n.span.start ≤ n.span.stop
  stop_le : n.span.stop ≤ source.length
  start_lt_stop : (∀ p, n = .program p → p.body ≠ []) → n.span.start < n.span.stop
  reads : n.Reads source
  within : ∀ c ∈ n.children, n.span.start ≤ c.span.start ∧ c.span.stop ≤ n.span.stop
  apart : n.children.Pairwise fun c d => c.span.stop ≤ d.span.start

/-! ## Tokens up to a closing brace -/

def Token.Framed (type : TokenType) (q : List Token) : Prop :=
  ∃ l mid r, q = l :: (mid ++ [r]) ∧ l.type = type ∧ r.type = .rightCurly

variable {q : List Token} {strict : Bool}

/-- A block starts with an opening brace and ends with a closing one. -/
theorem Block.SpelledBy.framed {b : Block} (h : b.SpelledBy q) : Token.Framed .leftCurly q := by
  cases h with
  | intro hlc _ hrc _ => exact ⟨_, _, _, rfl, hlc, hrc⟩

theorem Token.Framed.after {type : TokenType} (h : Token.Framed type q) {l : Token}
    (mid : List Token) : Token.Framed l.type (l :: (mid ++ q)) := by
  obtain ⟨b, inner, r, rfl, -, hr⟩ := h
  exact ⟨l, mid ++ b :: inner, r, by simp, rfl, hr⟩

theorem FunctionExpr.SpelledBy.framed {f : FunctionExpr} (h : f.SpelledBy q) :
    Token.Framed .functionWord q := by
  cases h with
  | @intro f lp rp names ps b _ _ _ _ hf _ _ _ _ hbody _ =>
    have hframed := hbody.framed.after (l := f) (names ++ lp :: (ps ++ [rp]))
    rw [hf] at hframed
    simpa using hframed

theorem Declaration.SpelledBy.framed {d : Declaration} (h : d.SpelledBy q) :
    Token.Framed .letWord q := by
  cases h with
  | @intro l i a f _ _ _ _ _ hl _ _ _ hinit _ _ => exact hl ▸ hinit.framed.after [i, a]

/-! ## Texts up to a closing brace -/

variable {pos : Nat} {text : List Char} {type : TokenType}

/-- Framed tokens are laid out as a text that starts with the opening word and ends with a brace. -/
theorem LaidTight.isClosed {opening : String} (h : LaidTight strict pos q text)
    (hq : Token.Framed type q) (hopening : ∀ w, type.Writes w → w = opening.toList) :
    IsClosed opening text := by
  obtain ⟨l, mid, r, rfl, hl, hr⟩ := hq
  obtain ⟨w, hw, hprefix⟩ := h.laid.starts
  rw [← List.cons_append] at h
  obtain ⟨front, brace, rfl, hbrace, -⟩ := h.ends (List.cons_ne_nil l mid)
  rw [hr] at hbrace
  obtain rfl : brace = ['\x7d'] := hbrace
  have hwrites := hw.writes
  rw [hl] at hwrites
  exact ⟨hopening w hwrites ▸ hprefix, List.suffix_append front _⟩

-- In front of tokens that follow the grammar, no brace is closed that was not opened.
theorem count_rightCurly_le_of_prefix {types r : List TokenType} (h : IsProgram types)
    (hr : r <+: types) : r.count .rightCurly ≤ r.count .leftCurly := by
  obtain ⟨s, hs⟩ := viable_iff_exists_run.1 (h.viable.of_prefix hr)
  have hopened : 0 + r.count .leftCurly = s.opened + r.count .rightCurly := State.opened_of_run hs
  omega

/-- The text of a block ends with the brace that matches its first one. -/
theorem LaidTight.isBraced {b : Block} (h : LaidTight strict pos q text) (hb : b.SpelledBy q) :
    IsBraced text := by
  have hclosed : IsClosed "\x7b" text := h.isClosed hb.framed fun w hw => hw
  cases hb with
  | @intro lc rc body _ _ hlc hbody hrc _ =>
    have hprogram := Parse.isProgram_of_allSpelledBy hbody
    have hopen : TokenType.ofSymbol? '\x7b' = some .leftCurly := rfl
    have hclose : TokenType.ofSymbol? '\x7d' = some .rightCurly := rfl
    refine ⟨hclosed, ?_, fun p hp hne hproper => ?_⟩
    · rw [h.laid.count_eq hopen, h.laid.count_eq hclose]
      simp [hlc, hrc, hprogram.count_eq]
    · rw [← List.cons_append] at h
      obtain ⟨front, brace, rfl, hbrace, hfront⟩ := h.ends (List.cons_ne_nil lc body)
      rw [hrc] at hbrace
      obtain rfl : brace = ['\x7d'] := hbrace
      rcases List.prefix_concat_iff.1 hp with hwhole | hp
      · exact absurd hwhole hproper
      -- What has been read are the opening brace and some tokens of the body.
      obtain ⟨r, hr, hrne, hcount⟩ := hfront.exists_prefix hp
      obtain ⟨lc', r, rfl⟩ := List.exists_cons_of_ne_nil (hrne hne)
      obtain ⟨rfl, hread⟩ := List.cons_prefix_cons.1 hr
      have hle := count_rightCurly_le_of_prefix hprogram (hread.map (·.type))
      rw [hcount _ _ hopen, hcount _ _ hclose]
      simp [hlc]
      omega

/-! ## Nodes -/

variable {source : String} {left right : List Char}

/-- An identifier that is cut out is a whole word. -/
theorem Cut.isWordOf {i : Identifier} {t : Token}
    (h : Cut strict [t] source.toList left text right) (hi : i.SpelledBy t) :
    i.IsWordOf source := by
  have hword : ∀ u, some t = some u → u.type.isWord = true := by
    rintro u ⟨⟩
    rw [hi.type]
    rfl
  have hw := h.writtenAs
  have hname : i.name = String.ofList text := Option.some.inj (hi.value.symm.trans hw.value)
  have hwrites := hw.writes
  rw [hi.type] at hwrites
  obtain ⟨hne, hletters, hlet, hfunction⟩ := hwrites
  have hdiffers : ∀ v : String, text ≠ v.toList → i.name ≠ v := by
    intro v hv heq
    rw [hname] at heq
    exact hv (by rw [← heq, String.toList_ofList])
  refine ⟨by rw [h.slice_eq hi.span, hname], hdiffers "" hne, ?_, hdiffers "let" hlet,
    hdiffers "function" hfunction, ?_, ?_⟩
  · rw [hname, String.toList_ofList]
    exact hletters
  · rw [h.take_start hi.span, ← List.head?_reverse]
    intro c hc
    simpa [isLetter] using h.left hword c hc
  · rw [h.drop_stop hi.span]
    intro c hc
    simpa [isLetter] using h.right hword c hc

/-- The source has the text of a node where the node is. -/
theorem Node.SpelledBy.reads {n : Node} (h : n.SpelledBy q)
    (hcut : Cut strict q source.toList left text right) (htype : n.type ≠ .program) :
    n.Reads source := by
  have hslice : (n.span.slice source).toList = text := by
    rw [hcut.slice_eq (h.bounds htype), String.toList_ofList]
  subst hslice
  cases h with
  | program => trivial
  | declaration h => exact hcut.text.isClosed h.framed fun w hw => hw
  | declarator h => exact hcut.text.isClosed h.framed fun w hw => hw
  | identifier h => exact hcut.isWordOf h
  | functionExpr h => exact hcut.text.isClosed h.framed fun w hw => hw
  | block h => exact hcut.text.isBraced h

/-- Every node but the program lies well in the source. -/
theorem Node.SpelledBy.wellPlaced {n : Node} (h : n.SpelledBy q)
    (hcut : Cut strict q source.toList left text right) (htype : n.type ≠ .program) :
    n.WellPlaced source := by
  have hbounds := h.bounds htype
  have hordered := hcut.text.laid.ordered
  obtain ⟨hstart, hlt, hstop⟩ := hcut.within hbounds
  exact ⟨hstart, Int.le_of_lt hlt, hstop, fun _ => hlt, h.reads hcut htype,
    fun c hc => h.children_within (hbounds.encloses hordered) hc, h.children_apart hordered⟩

/-! ## Programs -/

namespace Program.SpelledBy

variable {p : Program} {ts : List Token}

-- The tokens of a program lie between offset 0 and the end of the last of them.
theorem encloses (h : p.SpelledBy ts) (hts : Token.Ordered ts) (hnonneg : ∀ t ∈ ts, 0 ≤ t.start) :
    p.span.Encloses ts := by
  intro t ht
  have hspan : Span.Bounds ⟨(ts.head (List.ne_nil_of_mem ht)).start, p.span.stop⟩ ts := by
    refine ⟨by rw [List.head?_eq_some_head]; rfl, ?_⟩
    rw [h.stop, List.getLast?_eq_some_getLast (List.ne_nil_of_mem ht)]
    rfl
  have hstop := (hspan.encloses hts t ht).2
  have hstart := hnonneg t ht
  rw [h.start]
  exact ⟨hstart, hstop⟩

theorem ne_nil (h : p.SpelledBy ts) (hbody : p.body ≠ []) : ts ≠ [] := by
  obtain ⟨d, ds, hds⟩ := List.exists_cons_of_ne_nil hbody
  have hall := h.body
  rw [hds] at hall
  cases hall with
  | cons hd _ =>
    obtain ⟨l, mid, r, rfl, -, -⟩ := hd.framed
    exact List.cons_ne_nil _ _

/-- The program lies well in the source, even without declarations. -/
theorem wellPlaced (h : p.SpelledBy ts) (hlaid : Laid strict ts source) :
    (Node.program p).WellPlaced source := by
  have hordered := hlaid.ordered
  have hspan := h.encloses hordered fun t ht => (hlaid.within t ht).1
  have hnode := Node.SpelledBy.program h
  -- Without tokens the program ends where it starts.
  have hstop : 0 ≤ p.span.stop ∧ p.span.stop ≤ source.length ∧ (ts ≠ [] → 0 < p.span.stop) := by
    rw [h.stop]
    cases hlast : ts.getLast? with
    | none =>
      exact ⟨Int.le_refl 0, Int.natCast_nonneg _, absurd (List.getLast?_eq_none_iff.1 hlast)⟩
    | some t =>
      have ht := List.mem_of_getLast? hlast
      have hlt := hordered.start_lt_stop t ht
      have hin := hlaid.within t ht
      show 0 ≤ t.stop ∧ t.stop ≤ source.length ∧ (ts ≠ [] → 0 < t.stop)
      omega
  refine ⟨?_, ?_, ?_, ?_, trivial, fun c hc => hnode.children_within hspan hc,
    hnode.children_apart hordered⟩
  · exact h.start ▸ Int.le_refl 0
  · exact h.start ▸ hstop.1
  · exact hstop.2.1
  · intro hbody
    exact h.start ▸ hstop.2.2 (h.ne_nil (hbody p rfl))

end Program.SpelledBy

/-- Every node of the tree of a source text is in its place there, and the nodes of the walk start
one after the other. -/
theorem parseSource_spans [CallStack] {source : String} {strict : Bool} {p : Program}
    (h : parseSource source strict = .ok p) :
    (∀ n ∈ (Node.program p).walk, n.WellPlaced source) ∧
      (Node.program p).walk.Pairwise fun a b => a.span.start ≤ b.span.start := by
  obtain ⟨ts, hlaid, hspelled, -⟩ := parseSource_eq_ok_iff.1 h
  have hnode := Node.SpelledBy.program hspelled
  constructor
  · intro n hn
    by_cases hroot : n = .program p
    · rw [hroot]
      exact hspelled.wellPlaced hlaid
    · obtain ⟨q, left, text, right, hcut, hpart, htype⟩ := hnode.exists_cut hlaid hn hroot
      exact hpart.wellPlaced hcut htype
  · exact hnode.walk_starts hlaid.ordered
      (hspelled.encloses hlaid.ordered fun t ht => (hlaid.within t ht).1)

theorem laidOutProgram_spans :
    parseSource laidOutSource false = .ok laidOutProgram ∧
      (∀ n ∈ (Node.program laidOutProgram).walk, n.WellPlaced laidOutSource) ∧
      (Node.program laidOutProgram).walk.Pairwise fun a b => a.span.start ≤ b.span.start := by
  have hread : parseSource laidOutSource false = .ok laidOutProgram := by decide +kernel
  exact ⟨hread, parseSource_spans hread⟩

end LetFun
