import LetFun.Proofs.Spelling
import LetFun.Tree.Walk
/-!
# The ranges of tokens that nodes stand for

Every node of a walk stands for a range of the tokens of its root (`SpelledBy.of_mem_walk`), and the
children of a node stand for ranges that follow one another (`SpelledBy.children_inTurn`). Where
each token ends before the next one starts, so do the children, and the walk goes from left to
right.
-/

namespace LetFun

structure Token.Ordered (ts : List Token) : Prop where
  start_lt_stop : ∀ t ∈ ts, t.start < t.stop
  apart : ts.Pairwise fun t u => t.stop ≤ u.start

/-- Tokens that are left out do not disturb the order. -/
theorem Token.Ordered.sublist {q ts : List Token} (h : Token.Ordered ts) (hq : q.Sublist ts) :
    Token.Ordered q :=
  ⟨fun t ht => h.start_lt_stop t (hq.subset ht), h.apart.sublist hq⟩

def Span.Encloses (s : Span) (ts : List Token) : Prop :=
  ∀ t ∈ ts, s.start ≤ t.start ∧ t.stop ≤ s.stop

theorem Span.Bounds.exists_start {s : Span} {ts : List Token} (h : s.Bounds ts) :
    ∃ t ∈ ts, t.start = s.start := by
  obtain ⟨t, ht, hstart⟩ := Option.map_eq_some_iff.1 h.start
  exact ⟨t, List.mem_of_mem_head? ht, hstart⟩

theorem Span.Bounds.exists_stop {s : Span} {ts : List Token} (h : s.Bounds ts) :
    ∃ t ∈ ts, t.stop = s.stop := by
  obtain ⟨t, ht, hstop⟩ := Option.map_eq_some_iff.1 h.stop
  exact ⟨t, List.mem_of_mem_getLast? ht, hstop⟩

/-- A span that goes from the first token to the last has all of them in it. -/
theorem Span.Bounds.encloses {s : Span} {ts : List Token} (h : s.Bounds ts)
    (hts : Token.Ordered ts) : s.Encloses ts := by
  intro t ht
  have hlt := hts.start_lt_stop t ht
  obtain ⟨l, hl, hstart⟩ := Option.map_eq_some_iff.1 h.start
  obtain ⟨r, hr, hstop⟩ := Option.map_eq_some_iff.1 h.stop
  obtain ⟨rest, rfl⟩ := List.head?_eq_some_iff.1 hl
  -- A token is the first one or comes after it, and likewise at the end.
  have hfirst : l.start ≤ t.start := by
    have hl := hts.start_lt_stop l List.mem_cons_self
    rcases List.mem_cons.1 ht with rfl | ht
    · omega
    · have hapart := List.rel_of_pairwise_cons hts.apart ht
      omega
  have hlast : t.stop ≤ r.stop := by
    obtain ⟨front, hfront⟩ := List.getLast?_eq_some_iff.1 hr
    rw [hfront] at hts ht
    have hr := hts.start_lt_stop r (by simp)
    rcases List.mem_append.1 ht with ht | ht
    · have hapart := (List.pairwise_append.1 hts.apart).2.2 t ht r List.mem_cons_self
      omega
    · obtain rfl := List.mem_singleton.1 ht
      omega
  omega

theorem Declaration.SpelledBy.bounds {d : Declaration} {ts : List Token} (h : d.SpelledBy ts) :
    d.span.Bounds ts := by
  cases h with
  | intro _ _ _ _ _ hspan _ => exact hspan

theorem FunctionExpr.SpelledBy.bounds {f : FunctionExpr} {ts : List Token} (h : f.SpelledBy ts) :
    f.span.Bounds ts := by
  cases h with
  | intro _ _ _ _ _ _ hspan => exact hspan

namespace Node

/-- A node is spelled by a range of tokens; a declarator has the range of its declaration. -/
inductive SpelledBy : Node → List Token → Prop where
  | program {p : Program} {ts : List Token} (h : p.SpelledBy ts) : SpelledBy (.program p) ts
  | declaration {d : Declaration} {ts : List Token} (h : d.SpelledBy ts) :
      SpelledBy (.declaration d) ts
  | declarator {d : Declarator} {ts : List Token} {span : Span} {kind : Kind}
      (h : Declaration.SpelledBy ⟨span, kind, [d]⟩ ts) : SpelledBy (.declarator d) ts
  | identifier {i : Identifier} {t : Token} (h : i.SpelledBy t) : SpelledBy (.identifier i) [t]
  | functionExpr {f : FunctionExpr} {ts : List Token} (h : f.SpelledBy ts) :
      SpelledBy (.functionExpr f) ts
  | block {b : Block} {ts : List Token} (h : b.SpelledBy ts) : SpelledBy (.block b) ts

-- The span of a program may start before its first token.
theorem SpelledBy.bounds {n : Node} {ts : List Token} (h : n.SpelledBy ts)
    (hn : n.type ≠ .program) : n.span.Bounds ts := by
  cases h with
  | program => exact absurd rfl hn
  | declaration h => exact h.bounds
  | declarator h =>
    cases h with
    | intro _ _ _ _ _ _ hinner => exact hinner
  | identifier h => exact h.span
  | functionExpr h => exact h.bounds
  | block h =>
    cases h with
    | intro _ _ _ hspan => exact hspan

/-! ## Children -/

/-- Nodes that stand for ranges of tokens which follow one another, perhaps with other tokens
between them. -/
inductive InTurn : List Node → List Token → Prop where
  | nil (ts : List Token) : InTurn [] ts
  | cons {n : Node} {ns : List Node} {q rest : List Token} (skipped : List Token)
      (hn : n.SpelledBy q) (htype : n.type ≠ .program) (hns : InTurn ns rest) :
      InTurn (n :: ns) (skipped ++ (q ++ rest))

variable {n : Node} {ns : List Node} {ts : List Token}

theorem InTurn.after (h : InTurn ns ts) (more : List Token) : InTurn ns (more ++ ts) := by
  cases h with
  | nil => exact .nil _
  | cons skipped hn htype hns =>
    rw [← List.append_assoc]
    exact .cons (more ++ skipped) hn htype hns

theorem InTurn.before (h : InTurn ns ts) (more : List Token) : InTurn ns (ts ++ more) := by
  induction h with
  | nil => exact .nil _
  | cons skipped hn htype _ ih =>
    rw [List.append_assoc, List.append_assoc]
    exact .cons skipped hn htype ih

theorem InTurn.identifiers {is : List Identifier} {ps : List Token}
    (h : List.Forall₂ Identifier.SpelledBy is ps) (hns : InTurn ns ts) :
    InTurn (is.map .identifier ++ ns) (ps ++ ts) := by
  induction h with
  | nil => exact hns
  | cons hi _ ih => exact .cons [] (.identifier hi) nofun ih

theorem InTurn.declarations {ds : List Declaration} (h : Declaration.AllSpelledBy ds ts) :
    InTurn (ds.map .declaration) ts := by
  induction ds generalizing ts with
  | nil => exact .nil ts
  | cons d ds ih =>
    obtain ⟨⟩ | ⟨hd, hds⟩ := h
    exact .cons [] (.declaration hd) nofun (ih hds)

theorem InTurn.last (h : n.SpelledBy ts) (htype : n.type ≠ .program) : InTurn [n] ts := by
  have hlast := InTurn.cons [] h htype (.nil [])
  rwa [List.append_nil] at hlast

/-- The children of a node are spelled one after the other, with tokens between them that belong to
no child. -/
theorem SpelledBy.children_inTurn (h : n.SpelledBy ts) : InTurn n.children ts := by
  cases h with
  | program h => exact .declarations h.body
  | declaration h =>
    have hd := h
    cases h with
    | intro => exact .last (.declarator hd) nofun
  | declarator h =>
    cases h with
    | @intro l i a f _ _ _ id init _ _ hid _ hinit _ _ =>
      have hf : InTurn [.functionExpr init] (a :: f) :=
        (InTurn.last (.functionExpr hinit) nofun).after [a]
      exact .cons [l] (.identifier hid) nofun hf
  | identifier => exact .nil _
  | functionExpr h =>
    cases h with
    -- The name, the parameters and the block have the word `function` and the parentheses between
    -- them.
    | @intro f lp rp names ps b _ id params body _ hname _ hparams _ hbody _ =>
      have hblock : InTurn [.block body] (rp :: b) :=
        (InTurn.last (.block hbody) nofun).after [rp]
      have hps : InTurn (params.map .identifier ++ [.block body]) (lp :: (ps ++ rp :: b)) :=
        (InTurn.identifiers hparams hblock).after [lp]
      have hall := (InTurn.identifiers hname hps).after [f]
      rwa [← List.append_assoc] at hall
  | block h =>
    cases h with
    | @intro lc rc q _ body _ hbody _ _ =>
      exact ((InTurn.declarations hbody).before [rc]).after [lc]

theorem InTurn.of_mem (h : InTurn ns ts) {c : Node} (hc : c ∈ ns) :
    ∃ q, q <:+: ts ∧ c.SpelledBy q ∧ c.type ≠ .program := by
  induction h with
  | nil => cases hc
  | @cons n ns q rest skipped hn htype _ ih =>
    rcases List.mem_cons.1 hc with rfl | hc
    · exact ⟨q, ⟨skipped, rest, List.append_assoc ..⟩, hn, htype⟩
    · obtain ⟨r, hr, hspelled⟩ := ih hc
      refine ⟨r, hr.trans ?_, hspelled⟩
      rw [← List.append_assoc]
      exact (List.suffix_append _ rest).isInfix

/-! ## Walks -/

/-- What holds of a node if it holds of its children holds of every node. -/
theorem induction {motive : Node → Prop} (h : ∀ n, (∀ c ∈ n.children, motive c) → motive n)
    (n : Node) : motive n := by
  generalize hk : n.walk.length = k
  induction k using Nat.strongRecOn generalizing n with
  | ind k ih =>
    refine h n fun c hc => ih c.walk.length ?_ c rfl
    obtain ⟨before, after, hchildren⟩ := List.append_of_mem hc
    rw [walk_eq, hchildren, List.flatMap_append, List.flatMap_cons, List.length_cons,
      List.length_append, List.length_append] at hk
    omega

/-- A node of a walk is the root or stands for a range of its tokens. -/
theorem SpelledBy.of_mem_walk (h : n.SpelledBy ts) {m : Node} (hm : m ∈ n.walk) :
    m = n ∨ m.type ≠ .program ∧ ∃ q, q <:+: ts ∧ m.SpelledBy q := by
  induction n using Node.induction generalizing ts with
  | h n ih =>
    rw [walk_eq, List.mem_cons] at hm
    rcases hm with hm | hm
    · exact .inl hm
    · obtain ⟨c, hc, hm⟩ := List.mem_flatMap.1 hm
      obtain ⟨q, hq, hspelled, htype⟩ := h.children_inTurn.of_mem hc
      rcases ih c hc hspelled hm with rfl | ⟨hmtype, r, hr, hr'⟩
      · exact .inr ⟨htype, q, hq, hspelled⟩
      · exact .inr ⟨hmtype, r, hr.trans hq, hr'⟩

/-! ## From left to right -/

/-- Of two nodes in turn, the first is spelled before the second. -/
theorem InTurn.pairwise (h : InTurn ns ts) : ns.Pairwise fun c d => ∃ q r, c.SpelledBy q ∧
    c.type ≠ .program ∧ d.SpelledBy r ∧ d.type ≠ .program ∧ (q ++ r).Sublist ts := by
  induction h with
  | nil => exact .nil
  | @cons n ns q rest skipped hn htype hns ih =>
    refine .cons (fun d hd => ?_) (ih.imp ?_)
    · obtain ⟨r, hr, hspelled, hdtype⟩ := hns.of_mem hd
      refine ⟨q, r, hn, htype, hspelled, hdtype, ?_⟩
      exact ((List.Sublist.refl q).append hr.sublist).trans (List.sublist_append_right ..)
    · rintro c d ⟨q', r, hc, hctype, hd, hdtype, hsub⟩
      refine ⟨q', r, hc, hctype, hd, hdtype, hsub.trans ?_⟩
      rw [← List.append_assoc]
      exact List.sublist_append_right ..

/-- Every node starts where one of its tokens does. -/
theorem SpelledBy.exists_start (h : n.SpelledBy ts) (htype : n.type ≠ .program) {m : Node}
    (hm : m ∈ n.walk) : ∃ t ∈ ts, t.start = m.span.start := by
  rcases h.of_mem_walk hm with rfl | ⟨hmtype, q, hq, hspelled⟩
  · exact (h.bounds htype).exists_start
  · obtain ⟨t, ht, hstart⟩ := (hspelled.bounds hmtype).exists_start
    exact ⟨t, hq.subset ht, hstart⟩

/-- The span of a child lies in that of its parent. -/
theorem SpelledBy.children_within (h : n.SpelledBy ts) (hspan : n.span.Encloses ts) {c : Node}
    (hc : c ∈ n.children) : n.span.start ≤ c.span.start ∧ c.span.stop ≤ n.span.stop := by
  obtain ⟨q, hq, hspelled, htype⟩ := h.children_inTurn.of_mem hc
  obtain ⟨t, ht, hstart⟩ := (hspelled.bounds htype).exists_start
  obtain ⟨u, hu, hstop⟩ := (hspelled.bounds htype).exists_stop
  have hfirst := (hspan t (hq.subset ht)).1
  have hlast := (hspan u (hq.subset hu)).2
  omega

variable (hts : Token.Ordered ts)
include hts

/-- The spans of two children do not overlap. -/
theorem SpelledBy.children_apart (h : n.SpelledBy ts) :
    n.children.Pairwise fun c d => c.span.stop ≤ d.span.start := by
  refine h.children_inTurn.pairwise.imp ?_
  rintro c d ⟨q, r, hc, hctype, hd, hdtype, hsub⟩
  obtain ⟨t, ht, hstop⟩ := (hc.bounds hctype).exists_stop
  obtain ⟨u, hu, hstart⟩ := (hd.bounds hdtype).exists_start
  have hapart := (List.pairwise_append.1 (hts.sublist hsub).apart).2.2 t ht u hu
  omega

/-- Along a walk the starts never go back. -/
theorem SpelledBy.walk_starts (h : n.SpelledBy ts) (hspan : n.span.Encloses ts) :
    n.walk.Pairwise fun a b => a.span.start ≤ b.span.start := by
  induction n using Node.induction generalizing ts with
  | h n ih =>
    rw [walk_eq, List.pairwise_cons, List.pairwise_flatMap]
    refine ⟨fun m hm => ?_, fun c hc => ?_, h.children_inTurn.pairwise.imp ?_⟩
    · obtain ⟨c, hc, hm⟩ := List.mem_flatMap.1 hm
      obtain ⟨q, hq, hspelled, htype⟩ := h.children_inTurn.of_mem hc
      obtain ⟨t, ht, hstart⟩ := hspelled.exists_start htype hm
      have hfirst := (hspan t (hq.subset ht)).1
      omega
    · obtain ⟨q, hq, hspelled, htype⟩ := h.children_inTurn.of_mem hc
      have hqs := hts.sublist hq.sublist
      exact ih c hc hqs hspelled ((hspelled.bounds htype).encloses hqs)
    · rintro c d ⟨q, r, hc, hctype, hd, hdtype, hsub⟩ a ha b hb
      obtain ⟨t, ht, hstart⟩ := hc.exists_start hctype ha
      obtain ⟨u, hu, hstart'⟩ := hd.exists_start hdtype hb
      have hordered := hts.sublist hsub
      have hapart := (List.pairwise_append.1 hordered.apart).2.2 t ht u hu
      have hlt := hordered.start_lt_stop t (List.mem_append_left r ht)
      omega

end Node

end LetFun
