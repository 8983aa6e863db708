import LetFun.Proofs.Grammar
import LetFun.Tree.Parse
import Mathlib.Data.List.Forall2
/-!
# Trees and the tokens that spell them

`SpelledBy` relates every part of a tree to the range of tokens that it stands for: the tokens of
its parts in source order with the fixed tokens between them, and a span that goes from the start
of the first token of the range to the end of the last. Nothing is asked of offsets otherwise.

The second half looks at a declaration the way it is read, as an opening, a body and a closing
brace (`allSpelledBy_cons_iff`), and gives the induction over declarations in that form.
-/

namespace LetFun

open Grammar

/-! ## Types and values -/

abbrev Token.types (ts : List Token) : List TokenType :=
  ts.map (·.type)

/-- A token has a value that its type needs: a name for an identifier, the spelling of a kind for a
`let`. -/
structure Token.IsValued (t : Token) : Prop where
  name : t.type = .identifier → ∃ name, t.value = some name
  kind : t.type = .letWord → ∃ kind : Kind, t.value = some kind.name

-- The spelling of a kind determines it.
theorem Kind.bind_ofName?_eq_some_iff {value : Option String} {kind : Kind} :
    value.bind Kind.ofName? = some kind ↔ value = some kind.name := by
  constructor
  · intro h
    obtain ⟨s, hs, hk⟩ := Option.bind_eq_some_iff.1 h
    rw [hs, Kind.name_of_ofName? hk]
  · intro h
    rw [h]
    exact Kind.ofName?_name kind

instance (t : Token) : Decidable t.IsValued :=
  decidable_of_iff ((t.type = .identifier → t.value.isSome) ∧
      (t.type = .letWord → (t.value.bind Kind.ofName?).isSome)) <| by
    simp only [Option.isSome_iff_exists, Kind.bind_ofName?_eq_some_iff]
    exact ⟨fun h => ⟨h.1, h.2⟩, fun h => ⟨h.name, h.kind⟩⟩

/-! ## The relation -/

structure Span.Bounds (s : Span) (ts : List Token) : Prop where
  start : ts.head?.map (·.start) = some s.start
  stop : ts.getLast?.map (·.stop) = some s.stop

structure Identifier.SpelledBy (i : Identifier) (t : Token) : Prop where
  type : t.type = .identifier
  value : t.value = some i.name
  span : i.span.Bounds [t]

mutual

/-- A declaration is `let`, the one identifier that it binds, `=` and a function. The value of the
first token names the kind, and the declarator has the same range as the declaration. -/
inductive Declaration.SpelledBy : Declaration → List Token → Prop where
  | intro {l i a : Token} {f : List Token} {span inner : Span} {kind : Kind} {id : Identifier}
      {init : FunctionExpr} (hl : l.type = .letWord) (hkind : l.value = some kind.name)
      (hid : id.SpelledBy i) (ha : a.type = .assign) (hinit : FunctionExpr.SpelledBy init f)
      (hspan : span.Bounds (l :: i :: a :: f)) (hinner : inner.Bounds (l :: i :: a :: f)) :
      Declaration.SpelledBy ⟨span, kind, [⟨inner, id, init⟩]⟩ (l :: i :: a :: f)

inductive FunctionExpr.SpelledBy : FunctionExpr → List Token → Prop where
  | intro {f lp rp : Token} {names ps b : List Token} {span : Span} {id : Option Identifier}
      {params : List Identifier} {body : Block} (hf : f.type = .functionWord)
      (hname : List.Forall₂ Identifier.SpelledBy id.toList names) (hlp : lp.type = .leftParen)
      (hparams : List.Forall₂ Identifier.SpelledBy params ps) (hrp : rp.type = .rightParen)
      (hbody : Block.SpelledBy body b)
      (hspan : span.Bounds (f :: (names ++ lp :: (ps ++ rp :: b)))) :
      FunctionExpr.SpelledBy ⟨span, id, params, body⟩ (f :: (names ++ lp :: (ps ++ rp :: b)))

inductive Block.SpelledBy : Block → List Token → Prop where
  | intro {lc rc : Token} {q : List Token} {span : Span} {body : List Declaration}
      (hlc : lc.type = .leftCurly) (hbody : Declaration.AllSpelledBy body q)
      (hrc : rc.type = .rightCurly) (hspan : span.Bounds (lc :: (q ++ [rc]))) :
      Block.SpelledBy ⟨span, body⟩ (lc :: (q ++ [rc]))

inductive Declaration.AllSpelledBy : List Declaration → List Token → Prop where
  | nil : Declaration.AllSpelledBy [] []
  | cons {d : Declaration} {ds : List Declaration} {q rest : List Token}
      (hd : Declaration.SpelledBy d q) (hds : Declaration.AllSpelledBy ds rest) :
      Declaration.AllSpelledBy (d :: ds) (q ++ rest)

end

/-- A program is its declarations. It starts at offset 0 and ends with its last token, or at 0 if
it has none. -/
structure Program.SpelledBy (p : Program) (ts : List Token) : Prop where
  body : Declaration.AllSpelledBy p.body ts
  start : p.span.start = 0
  stop : p.span.stop = (ts.getLast?.map (·.stop)).getD 0

/-! ## Spans of ranges -/

theorem Span.bounds_cons {l r : Token} {q : List Token} :
    Span.Bounds ⟨l.start, r.stop⟩ (l :: (q ++ [r])) :=
  ⟨rfl, by rw [← List.cons_append, List.getLast?_concat, Option.map_some]⟩

-- A range has only one span.
theorem Span.Bounds.unique {s s' : Span} {ts : List Token} (h : s.Bounds ts) (h' : s'.Bounds ts) :
    s = s' := by
  have hstart := h.start.symm.trans h'.start
  have hstop := h.stop.symm.trans h'.stop
  cases s
  cases s'
  simp_all

theorem Span.Bounds.eq {s : Span} {l r : Token} {q : List Token}
    (h : s.Bounds (l :: (q ++ [r]))) : s = ⟨l.start, r.stop⟩ :=
  h.unique Span.bounds_cons

theorem Identifier.spelledBy_iff {i : Identifier} {t : Token} :
    i.SpelledBy t ↔
      t.type = .identifier ∧ t.value = some i.name ∧ i.span = ⟨t.start, t.stop⟩ := by
  constructor
  · rintro ⟨htype, hvalue, hspan⟩
    exact ⟨htype, hvalue, hspan.unique ⟨rfl, rfl⟩⟩
  · rintro ⟨htype, hvalue, hspan⟩
    exact ⟨htype, hvalue, by rw [hspan]; exact ⟨rfl, rfl⟩⟩

/-! ## Declarations as they are read -/

namespace Parse

inductive Opening.SpelledBy : Opening → List Token → Prop where
  | intro {l i a f lp rp b : Token} {names ps : List Token} {id : Identifier}
      {name : Option Identifier} {params : List Identifier} (hl : l.type = .letWord)
      (hid : id.SpelledBy i) (ha : a.type = .assign) (hf : f.type = .functionWord)
      (hname : List.Forall₂ Identifier.SpelledBy name.toList names) (hlp : lp.type = .leftParen)
      (hparams : List.Forall₂ Identifier.SpelledBy params ps) (hrp : rp.type = .rightParen)
      (hb : b.type = .leftCurly) :
      Opening.SpelledBy ⟨l, id, f, name, params, b⟩
        (l :: i :: a :: f :: (names ++ lp :: (ps ++ [rp, b])))

/-- A declaration is made of an opening with a kind, a body and a brace. -/
theorem Opening.close_eq_ok_iff {o : Opening} {body : List Declaration} {brace : Token}
    {d : Declaration} :
    o.close body brace = .ok d ↔ ∃ kind : Kind, o.letToken.value = some kind.name ∧
      d = ⟨⟨o.letToken.start, brace.stop⟩, kind, [⟨⟨o.letToken.start, brace.stop⟩, o.id,
        ⟨⟨o.functionToken.start, brace.stop⟩, o.name, o.params,
          ⟨⟨o.brace.start, brace.stop⟩, body⟩⟩⟩]⟩ := by
  rw [Opening.close]
  constructor
  · intro h
    split at h
    · cases h
    · next kind hkind =>
      cases h
      exact ⟨kind, Kind.bind_ofName?_eq_some_iff.1 hkind, rfl⟩
  · rintro ⟨kind, hkind, rfl⟩
    rw [Kind.bind_ofName?_eq_some_iff.2 hkind]

/-- A declaration is spelled by its opening, its body and the brace that closes it. -/
theorem spelledBy_iff {d : Declaration} {ts : List Token} :
    d.SpelledBy ts ↔ ∃ o q body inner brace, Opening.SpelledBy o q ∧
      Declaration.AllSpelledBy body inner ∧ brace.type = .rightCurly ∧
      o.close body brace = .ok d ∧ ts = q ++ (inner ++ [brace]) := by
  constructor
  · intro h
    obtain ⟨hl, hkind, hid, ha, hinit, hspan, hinner⟩ := h
    obtain ⟨hf, hname, hlp, hparams, hrp, hblock, hfspan⟩ := hinit
    obtain ⟨hlc, hbody, hrc, hbspan⟩ := hblock
    rename_i l i a _ _ kind id f lp rp names ps _ name params lc rc inner _ body
    refine ⟨⟨l, id, f, name, params, lc⟩, _, body, inner, rc,
      .intro hl hid ha hf hname hlp hparams hrp hlc, hbody, hrc, ?_, by simp⟩
    -- Each of the four ranges ends with the closing brace.
    have hrange : l :: i :: a :: f :: (names ++ lp :: (ps ++ rp :: lc :: (inner ++ [rc]))) =
        l :: ((i :: a :: f :: (names ++ lp :: (ps ++ rp :: lc :: inner))) ++ [rc]) := by simp
    have hfrange : f :: (names ++ lp :: (ps ++ rp :: lc :: (inner ++ [rc]))) =
        f :: ((names ++ lp :: (ps ++ rp :: lc :: inner)) ++ [rc]) := by simp
    rw [hrange] at hspan hinner
    rw [hfrange] at hfspan
    rw [hspan.eq, hinner.eq, hfspan.eq, hbspan.eq]
    exact Opening.close_eq_ok_iff.2 ⟨kind, hkind, rfl⟩
  · rintro ⟨_, _, body, inner, brace, ho, hbody, hbrace, hd, rfl⟩
    obtain ⟨hl, hid, ha, hf, hname, hlp, hparams, hrp, hb⟩ := ho
    obtain ⟨kind, hkind, rfl⟩ := Opening.close_eq_ok_iff.1 hd
    rename_i l i a f lp rp b names ps id name params
    have hblock := Block.SpelledBy.intro hb hbody hbrace Span.bounds_cons
    have hfspan : Span.Bounds ⟨f.start, brace.stop⟩
        (f :: (names ++ lp :: (ps ++ rp :: b :: (inner ++ [brace])))) := by
      simpa using Span.bounds_cons (q := names ++ lp :: (ps ++ rp :: b :: inner))
    have hinit := FunctionExpr.SpelledBy.intro hf hname hlp hparams hrp hblock hfspan
    have hspan : Span.Bounds ⟨l.start, brace.stop⟩
        (l :: i :: a :: f :: (names ++ lp :: (ps ++ rp :: b :: (inner ++ [brace])))) := by
      simpa using Span.bounds_cons (q := i :: a :: f :: (names ++ lp :: (ps ++ rp :: b :: inner)))
    simpa using Declaration.SpelledBy.intro hl hkind hid ha hinit hspan hspan

/-- The first of several declarations is an opening, a body and a brace, and the others follow. -/
theorem allSpelledBy_cons_iff {d : Declaration} {ds : List Declaration} {ts : List Token} :
    Declaration.AllSpelledBy (d :: ds) ts ↔ ∃ o q body inner brace rest, Opening.SpelledBy o q ∧
      Declaration.AllSpelledBy body inner ∧ brace.type = .rightCurly ∧
      o.close body brace = .ok d ∧ Declaration.AllSpelledBy ds rest ∧
      ts = q ++ (inner ++ brace :: rest) := by
  constructor
  · intro h
    obtain ⟨⟩ | ⟨hd, hds⟩ := h
    obtain ⟨o, q, body, inner, brace, ho, hbody, hbrace, hclose, rfl⟩ := spelledBy_iff.1 hd
    exact ⟨o, q, body, inner, brace, _, ho, hbody, hbrace, hclose, hds, by simp⟩
  · rintro ⟨o, q, body, inner, brace, rest, ho, hbody, hbrace, hclose, hds, rfl⟩
    have hd := spelledBy_iff.2 ⟨o, q, body, inner, brace, ho, hbody, hbrace, hclose, rfl⟩
    simpa using Declaration.AllSpelledBy.cons hd hds

/-- Induction over spelled declarations, each seen as an opening, a body and a brace. -/
@[elab_as_elim]
theorem spelledInduction
    {motive : (ds : List Declaration) → (ts : List Token) → Declaration.AllSpelledBy ds ts → Prop}
    (nil : motive [] [] .nil)
    (cons : ∀ {o q body inner brace d ds rest} (ho : Opening.SpelledBy o q)
      (hbody : Declaration.AllSpelledBy body inner) (hbrace : brace.type = .rightCurly)
      (hd : o.close body brace = .ok d) (hds : Declaration.AllSpelledBy ds rest),
      motive body inner hbody → motive ds rest hds →
      motive (d :: ds) (q ++ (inner ++ brace :: rest))
        (allSpelledBy_cons_iff.2 ⟨o, q, body, inner, brace, rest, ho, hbody, hbrace, hd, hds, rfl⟩))
    {ds : List Declaration} {ts : List Token} (h : Declaration.AllSpelledBy ds ts) :
    motive ds ts h := by
  -- The body and the rest are both shorter than the whole, but neither is its tail.
  generalize hn : ts.length = n
  induction n using Nat.strongRecOn generalizing ds ts with
  | ind n ih =>
    cases ds with
    | nil =>
      cases h
      exact nil
    | cons d ds =>
      obtain ⟨o, q, body, inner, brace, rest, ho, hbody, hbrace, hd, hds, rfl⟩ :=
        allSpelledBy_cons_iff.1 h
      simp only [List.length_append, List.length_cons] at hn
      exact cons ho hbody hbrace hd hds (ih _ (by omega) hbody rfl) (ih _ (by omega) hds rfl)

/-! ## From trees to the grammar -/

theorem types_eq_replicate {is : List Identifier} {ps : List Token}
    (h : List.Forall₂ Identifier.SpelledBy is ps) : ∀ t ∈ Token.types ps, t = .identifier := by
  induction h with
  | nil => simp
  | cons hi _ ih => simpa [hi.type] using ih

/-- What spells an opening follows the grammar. -/
theorem Opening.SpelledBy.isOpening {o : Opening} {q : List Token} (h : o.SpelledBy q) :
    IsOpening (Token.types q) := by
  obtain ⟨hl, hid, ha, hf, hname, hlp, hparams, hrp, hb⟩ := h
  rename_i names ps id name params
  have hnames : Token.types names = [] ∨ Token.types names = [.identifier] := by
    cases name with
    | none =>
      cases hname
      exact .inl rfl
    | some i =>
      obtain ⟨⟩ | ⟨hi, ⟨⟩⟩ := hname
      exact .inr (congrArg (fun type => [type]) hi.type)
  simpa [hl, hid.type, ha, hf, hlp, hrp, hb] using .intro hnames (types_eq_replicate hparams)

/-- What spells declarations follows the grammar. -/
theorem isProgram_of_allSpelledBy {ds : List Declaration} {ts : List Token}
    (h : Declaration.AllSpelledBy ds ts) : IsProgram (Token.types ts) := by
  induction h using spelledInduction with
  | nil => exact .nil
  | cons ho _ hbrace _ _ ihbody ihrest =>
    simpa [hbrace] using isProgram_cons ho.isOpening ihbody ihrest

/-! ## From the grammar to trees -/

theorem exists_identifier {t : Token} (htype : t.type = .identifier) (h : t.IsValued) :
    ∃ i : Identifier, i.SpelledBy t := by
  obtain ⟨name, hname⟩ := h.name htype
  exact ⟨⟨⟨t.start, t.stop⟩, name⟩, Identifier.spelledBy_iff.2 ⟨htype, hname, rfl⟩⟩

theorem exists_identifiers {ps : List Token} (htypes : ∀ t ∈ Token.types ps, t = .identifier)
    (h : ∀ t ∈ ps, t.IsValued) : ∃ is, List.Forall₂ Identifier.SpelledBy is ps := by
  induction ps with
  | nil => exact ⟨[], .nil⟩
  | cons t ps ih =>
    simp only [List.map_cons, List.forall_mem_cons] at htypes h
    obtain ⟨i, hi⟩ := exists_identifier htypes.1 h.1
    obtain ⟨is, his⟩ := ih htypes.2 h.2
    exact ⟨i :: is, .cons hi his⟩

/-- Tokens that follow the grammar and have their values spell an opening. -/
theorem exists_opening {q : List Token} (htypes : IsOpening (Token.types q))
    (h : ∀ t ∈ q, t.IsValued) : ∃ o : Opening, o.SpelledBy q ∧
      ∃ kind : Kind, o.letToken.value = some kind.name := by
  generalize hq : Token.types q = tys at htypes
  obtain ⟨hname, hparams⟩ := htypes
  -- The tokens are taken apart along their types.
  obtain ⟨l, q, rfl, hl, hq⟩ := List.map_eq_cons_iff.1 hq
  obtain ⟨i, q, rfl, hi, hq⟩ := List.map_eq_cons_iff.1 hq
  obtain ⟨a, q, rfl, ha, hq⟩ := List.map_eq_cons_iff.1 hq
  obtain ⟨f, q, rfl, hf, hq⟩ := List.map_eq_cons_iff.1 hq
  obtain ⟨names, q, rfl, hnames, hq⟩ := List.map_eq_append_iff.1 hq
  obtain ⟨lp, q, rfl, hlp, hq⟩ := List.map_eq_cons_iff.1 hq
  obtain ⟨ps, q, rfl, hps, hq⟩ := List.map_eq_append_iff.1 hq
  obtain ⟨rp, q, rfl, hrp, hq⟩ := List.map_eq_cons_iff.1 hq
  obtain ⟨b, q, rfl, hb, hq⟩ := List.map_eq_cons_iff.1 hq
  obtain rfl := List.map_eq_nil_iff.1 hq
  obtain ⟨id, hid⟩ := exists_identifier hi (h i (by simp))
  obtain ⟨params, hparams⟩ := exists_identifiers (hps ▸ hparams) fun t ht => h t (by simp [ht])
  obtain ⟨kind, hkind⟩ := (h l (by simp)).kind hl
  have hname : ∃ name : Option Identifier, List.Forall₂ Identifier.SpelledBy name.toList names := by
    rcases hname with rfl | rfl
    · exact ⟨none, by simp [List.map_eq_nil_iff.1 hnames]⟩
    · obtain ⟨n, q, rfl, hn, hq⟩ := List.map_eq_cons_iff.1 hnames
      obtain rfl := List.map_eq_nil_iff.1 hq
      obtain ⟨name, hname⟩ := exists_identifier hn (h n (by simp))
      exact ⟨some name, .cons hname .nil⟩
  obtain ⟨name, hname⟩ := hname
  exact ⟨⟨l, id, f, name, params, b⟩, .intro hl hid ha hf hname hlp hparams hrp hb, kind, hkind⟩

/-- Tokens of the types of a program spell one if their values fit. -/
theorem exists_allSpelledBy {ts : List Token} (htypes : IsProgram (Token.types ts))
    (h : ∀ t ∈ ts, t.IsValued) : ∃ ds, Declaration.AllSpelledBy ds ts := by
  generalize hts : Token.types ts = tys at htypes
  induction htypes using IsProgram.induction generalizing ts with
  | nil => exact ⟨[], by simpa [List.map_eq_nil_iff.1 hts] using .nil⟩
  | cons ho _ _ ihbody ihrest =>
    obtain ⟨q, ts, rfl, hq, hts⟩ := List.map_eq_append_iff.1 hts
    obtain ⟨inner, ts, rfl, hinner, hts⟩ := List.map_eq_append_iff.1 hts
    obtain ⟨brace, rest, rfl, hbrace, hrest⟩ := List.map_eq_cons_iff.1 hts
    obtain ⟨o, ho, kind, hkind⟩ := exists_opening (hq ▸ ho) fun t ht => h t (by simp [ht])
    obtain ⟨body, hbody⟩ := ihbody (fun t ht => h t (by simp [ht])) hinner
    obtain ⟨ds, hds⟩ := ihrest (fun t ht => h t (by simp [ht])) hrest
    exact ⟨_, allSpelledBy_cons_iff.2 ⟨o, q, body, inner, brace, rest, ho, hbody, hbrace,
      Opening.close_eq_ok_iff.2 ⟨kind, hkind, rfl⟩, hds, rfl⟩⟩

end Parse

end LetFun
