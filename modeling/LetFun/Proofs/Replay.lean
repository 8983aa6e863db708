import LetFun.Proofs.Acceptance
import LetFun.Tree.Walk
import Mathlib.Algebra.GroupWithZero.Nat
/-!
# Walks that replay the tokens

Declarations, functions, blocks and identifiers each start with a token of a type of their own. A
walk over a parsed tree comes by them in the order of these tokens
(`Declaration.AllSpelledBy.replayed`), so that the nodes of each sort can be counted and located by
the tokens of one type (`parse_walk_replays`).
-/

namespace LetFun

def TokenType.startsNode : TokenType → Bool
  | .letWord | .functionWord | .leftCurly | .identifier => true
  | .assign | .leftParen | .rightParen | .rightCurly => false

namespace Node

def declaration? : Node → Option Declaration
  | .declaration d => some d
  | _ => none

def identifier? : Node → Option Identifier
  | .identifier i => some i
  | _ => none

def functionExpr? : Node → Option FunctionExpr
  | .functionExpr f => some f
  | _ => none

def block? : Node → Option Block
  | .block b => some b
  | _ => none

/-- Whether a node starts with a token of its own: a program may have none, and a declarator shares
that of its declaration. -/
def hasToken : Node → Bool
  | .program _ | .declarator _ => false
  | .declaration _ | .identifier _ | .functionExpr _ | .block _ => true

/-- A node stands for the token that it starts with. -/
inductive Replays : Node → Token → Prop where
  | declaration {d : Declaration} {t : Token} (htype : t.type = .letWord)
      (hkind : t.value = some d.kind.name) (hstart : d.span.start = t.start) :
      Replays (.declaration d) t
  | identifier {i : Identifier} {t : Token} (h : i.SpelledBy t) : Replays (.identifier i) t
  | functionExpr {f : FunctionExpr} {t : Token} (htype : t.type = .functionWord)
      (hstart : f.span.start = t.start) : Replays (.functionExpr f) t
  | block {b : Block} {t : Token} (htype : t.type = .leftCurly)
      (hstart : b.span.start = t.start) : Replays (.block b) t

/-- The nodes with a token of their own stand, in order, for the tokens that start a node. -/
inductive Replayed : List Node → List Token → Prop where
  | nil : Replayed [] []
  | both {n : Node} {t : Token} {ns : List Node} {ts : List Token} (hn : n.Replays t)
      (h : Replayed ns ts) : Replayed (n :: ns) (t :: ts)
  | node {n : Node} {ns : List Node} {ts : List Token} (hn : n.hasToken = false)
      (h : Replayed ns ts) : Replayed (n :: ns) ts
  | token {t : Token} {ns : List Node} {ts : List Token} (ht : t.type.startsNode = false)
      (h : Replayed ns ts) : Replayed ns (t :: ts)

variable {ns ms : List Node} {ts us : List Token}

/-- Two walks in a row are replayed by the tokens of both in a row. -/
theorem Replayed.append (h : Replayed ns ts) (h' : Replayed ms us) :
    Replayed (ns ++ ms) (ts ++ us) := by
  induction h with
  | nil => exact h'
  | both hn _ ih => exact .both hn ih
  | node hn _ ih => exact .node hn ih
  | token ht _ ih => exact .token ht ih

theorem Replayed.identifiers {is : List Identifier} {ps : List Token}
    (h : List.Forall₂ Identifier.SpelledBy is ps) : Replayed (is.map .identifier) ps := by
  induction h with
  | nil => exact .nil
  | cons hi _ ih => exact .both (.identifier hi) ih

/-- What the nodes of one sort show is, in order, what the tokens of one type show. -/
theorem Replayed.map_eq {α β : Type} {sort : Node → Option α} {type : TokenType} {f : α → β}
    {g : Token → β} (h : Replayed ns ts) (htype : type.startsNode = true)
    (hprogram : ∀ p, sort (.program p) = none) (hdeclarator : ∀ d, sort (.declarator d) = none)
    (hreplays : ∀ n t, n.Replays t → (sort n).map f = if t.type = type then some (g t) else none) :
    (ns.filterMap sort).map f = (ts.filter (·.type = type)).map g := by
  induction h with
  | nil => rfl
  -- A node and its token are both in the lists, or neither is.
  | @both n t _ _ hn _ ih =>
    have hshown := hreplays n t hn
    by_cases ht : t.type = type
    · rw [if_pos ht] at hshown
      obtain ⟨a, ha, hfa⟩ := Option.map_eq_some_iff.1 hshown
      rw [List.filterMap_cons_some ha, List.filter_cons_of_pos (by simpa using ht), List.map_cons,
        List.map_cons, hfa, ih]
    · rw [if_neg ht] at hshown
      rw [List.filterMap_cons_none (Option.map_eq_none_iff.1 hshown),
        List.filter_cons_of_neg (by simpa using ht), ih]
  | @node n _ _ hn _ ih =>
    have hplain : sort n = none := by
      cases n with
      | program p => exact hprogram p
      | declarator d => exact hdeclarator d
      | _ => cases hn
    rw [List.filterMap_cons_none hplain, ih]
  | @token t _ _ ht _ ih =>
    have hne : t.type ≠ type := by
      rintro rfl
      cases ht.symm.trans htype
    rw [List.filter_cons_of_neg (by simpa using hne), ih]

/-! ## Counting -/

/-- How many tokens these nodes account for: eight for a declaration, and one more for the name and
for each parameter of a function. -/
def tokenCount (ns : List Node) : Nat :=
  8 * (ns.filterMap declaration?).length +
    (ns.filterMap functionExpr?).countP (·.id.isSome) +
    ((ns.filterMap functionExpr?).map (·.params.length)).sum

/-- Nodes account for tokens one by one. -/
theorem tokenCount_append (ns ms : List Node) :
    tokenCount (ns ++ ms) = tokenCount ns + tokenCount ms := by
  simp only [tokenCount, List.filterMap_append, List.length_append, List.countP_append,
    List.map_append, List.sum_append]
  omega

theorem tokenCount_cons (n : Node) (ns : List Node) :
    tokenCount (n :: ns) = tokenCount [n] + tokenCount ns :=
  tokenCount_append [n] ns

theorem tokenCount_functionExpr (f : FunctionExpr) :
    tokenCount [.functionExpr f] = f.id.toList.length + f.params.length := by
  obtain ⟨span, id, params, body⟩ := f
  cases id <;> simp [tokenCount, List.filterMap_cons, declaration?, functionExpr?]

theorem tokenCount_identifiers (is : List Identifier) : tokenCount (is.map .identifier) = 0 := by
  induction is with
  | nil => rfl
  | cons i is ih =>
    rw [List.map_cons, tokenCount_cons, ih]
    rfl

end Node

/-! ## Parsed declarations -/

open Node

mutual

/-- A walk over a declaration follows its tokens; the induction is on the tree. -/
theorem Declaration.SpelledBy.replayed {d : Declaration} {ts : List Token} (hd : d.SpelledBy ts) :
    Replayed d.walk ts := by
  cases hd with
  | @intro l i a f span inner kind id init hl hkind hid ha hinit hspan hinner =>
    have hassign : Replayed init.walk (a :: f) := .token (by rw [ha]; rfl) hinit.replayed
    have hstart : span.start = l.start := (Option.some.inj hspan.start).symm
    rw [Declaration.walk, Declarator.walkList, Declarator.walkList, List.append_nil]
    exact .both (.declaration hl hkind hstart) (.node rfl (.both (.identifier hid) hassign))

theorem FunctionExpr.SpelledBy.replayed {f : FunctionExpr} {ts : List Token}
    (hf : f.SpelledBy ts) : Replayed f.walk ts := by
  cases hf with
  | @intro f lp rp names ps b span id params body hf hname hlp hparams hrp hbody hspan =>
    have hblock : Replayed body.walk (rp :: b) := .token (by rw [hrp]; rfl) hbody.replayed
    have hps : Replayed (params.map .identifier ++ body.walk) (lp :: (ps ++ rp :: b)) :=
      .token (by rw [hlp]; rfl) ((Replayed.identifiers hparams).append hblock)
    have hstart : span.start = f.start := (Option.some.inj hspan.start).symm
    rw [FunctionExpr.walk, List.append_assoc]
    exact .both (.functionExpr hf hstart) ((Replayed.identifiers hname).append hps)

theorem Block.SpelledBy.replayed {b : Block} {ts : List Token} (hb : b.SpelledBy ts) :
    Replayed b.walk ts := by
  cases hb with
  | @intro lc rc q span body hlc hbody hrc hspan =>
    have hclose : Replayed [] [rc] := .token (by rw [hrc]; rfl) .nil
    have hstart : span.start = lc.start := (Option.some.inj hspan.start).symm
    have hall := hbody.replayed.append hclose
    rw [List.append_nil] at hall
    exact .both (.block hlc hstart) hall

/-- A walk over declarations replays the tokens that spell them. -/
theorem Declaration.AllSpelledBy.replayed {ds : List Declaration} {ts : List Token}
    (hds : Declaration.AllSpelledBy ds ts) : Replayed (Declaration.walkList ds) ts := by
  cases hds with
  | nil => exact .nil
  | cons hd hds => exact hd.replayed.append hds.replayed

end

mutual

/-- The nodes of a declaration account for all its tokens. -/
theorem Declaration.SpelledBy.length_eq {d : Declaration} {ts : List Token}
    (hd : d.SpelledBy ts) : ts.length = tokenCount d.walk := by
  cases hd with
  | @intro l i a f span inner kind id init hl hkind hid ha hinit hspan hinner =>
    have hlength := hinit.length_eq
    have hown : tokenCount [.declaration ⟨span, kind, [⟨inner, id, init⟩]⟩] = 8 := rfl
    have hrest : tokenCount (.declarator ⟨inner, id, init⟩ :: .identifier id :: init.walk) =
        tokenCount init.walk := tokenCount_append [_, _] _ |>.trans (Nat.zero_add _)
    rw [Declaration.walk, Declarator.walkList, Declarator.walkList, List.append_nil,
      tokenCount_cons, Declarator.walk, hown, hrest]
    simp only [List.length_cons]
    omega

-- The five tokens of every function belong to the eight of its declaration.
theorem FunctionExpr.SpelledBy.length_eq {f : FunctionExpr} {ts : List Token}
    (hf : f.SpelledBy ts) : ts.length = tokenCount f.walk + 5 := by
  cases hf with
  | @intro f lp rp names ps b span id params body hf hname hlp hparams hrp hbody hspan =>
    have hlength := hbody.length_eq
    have hnames := hname.length_eq
    have hps := hparams.length_eq
    rw [FunctionExpr.walk, tokenCount_cons, tokenCount_functionExpr, tokenCount_append,
      tokenCount_append, tokenCount_identifiers, tokenCount_identifiers]
    simp only [List.length_cons, List.length_append]
    omega

/-- The nodes of a block account for all its tokens but the two braces. -/
theorem Block.SpelledBy.length_eq {b : Block} {ts : List Token} (hb : b.SpelledBy ts) :
    ts.length = tokenCount b.walk + 2 := by
  cases hb with
  | @intro lc rc q span body hlc hbody hrc hspan =>
    have hlength := hbody.length_eq
    have hown : tokenCount [.block ⟨span, body⟩] = 0 := rfl
    rw [Block.walk, tokenCount_cons, hown]
    simp only [List.length_cons, List.length_append, List.length_nil]
    omega

/-- Declarations have the tokens that the nodes of a walk account for. -/
theorem Declaration.AllSpelledBy.length_eq {ds : List Declaration} {ts : List Token}
    (hds : Declaration.AllSpelledBy ds ts) : ts.length = tokenCount (Declaration.walkList ds) := by
  cases hds with
  | nil => rfl
  | cons hd hds =>
    rw [List.length_append, hd.length_eq, hds.length_eq, Declaration.walkList, tokenCount_append]

end

/-- A walk over a parsed tree comes by the identifiers, declarations, functions and blocks in the
order of the tokens that they start with, and no token is left out: each declaration has eight, and
one more for the name and for each parameter of its function. -/
theorem parse_walk_replays [CallStack] {ts : List Token} {p : Program} (h : parse ts = .ok p) :
    ((p.walk.filterMap Node.identifier?).map fun i => (some i.name, i.span.start, i.span.stop)) =
        ((ts.filter (·.type = .identifier)).map fun t => (t.value, t.start, t.stop)) ∧
      ((p.walk.filterMap Node.declaration?).map fun d => (some d.kind.name, d.span.start)) =
        ((ts.filter (·.type = .letWord)).map fun t => (t.value, t.start)) ∧
      (p.walk.filterMap Node.functionExpr?).map (·.span.start) =
        (ts.filter (·.type = .functionWord)).map (·.start) ∧
      (p.walk.filterMap Node.block?).map (·.span.start) =
        (ts.filter (·.type = .leftCurly)).map (·.start) ∧
      ts.length = 8 * (p.walk.filterMap Node.declaration?).length +
        (p.walk.filterMap Node.functionExpr?).countP (·.id.isSome) +
        ((p.walk.filterMap Node.functionExpr?).map (·.params.length)).sum := by
  have hbody := (Parse.program_eq_ok_iff.1 h).1.body
  have hwalk : Replayed p.walk ts := .node rfl hbody.replayed
  refine ⟨?identifiers, ?declarations, ?functions, ?blocks, hbody.length_eq⟩
  -- Each list takes the nodes of one type from the walk and the tokens of one type from the text.
  case identifiers =>
    apply hwalk.map_eq rfl (fun _ => rfl) fun _ => rfl
    intro n t hn
    cases hn with
    | identifier hi =>
      obtain ⟨htype, hvalue, hspan⟩ := Identifier.spelledBy_iff.1 hi
      simp [Node.identifier?, htype, hvalue, hspan]
    | _ htype => simp [Node.identifier?, htype]
  case declarations =>
    apply hwalk.map_eq rfl (fun _ => rfl) fun _ => rfl
    intro n t hn
    cases hn with
    | declaration htype hkind hstart => simp [Node.declaration?, htype, hkind, hstart]
    | identifier hi => simp [Node.declaration?, hi.type]
    | _ htype => simp [Node.declaration?, htype]
  case functions =>
    apply hwalk.map_eq rfl (fun _ => rfl) fun _ => rfl
    intro n t hn
    cases hn with
    | functionExpr htype hstart => simp [Node.functionExpr?, htype, hstart]
    | identifier hi => simp [Node.functionExpr?, hi.type]
    | _ htype => simp [Node.functionExpr?, htype]
  case blocks =>
    apply hwalk.map_eq rfl (fun _ => rfl) fun _ => rfl
    intro n t hn
    cases hn with
    | block htype hstart => simp [Node.block?, htype, hstart]
    | identifier hi => simp [Node.block?, hi.type]
    | _ htype => simp [Node.block?, htype]

/-- The nested declarations have one name and one parameter besides their sixteen tokens. -/
theorem nestedProgram_walk_replays :
    parse nestedTokens = .ok nestedProgram ∧
      (nestedProgram.walk.filterMap Node.identifier?).map
          (fun i => (some i.name, i.span.start, i.span.stop)) =
        [(some "a", 9, 2), (some "f", 5, 5), (some "x", 8, -8), (some "b", 1, 0)] ∧
      nestedTokens.length = 8 * 2 + 1 + 1 := by
  have haccepted : parse nestedTokens = .ok nestedProgram := by decide +kernel
  obtain ⟨hidentifiers, -, -, -, hlength⟩ := parse_walk_replays haccepted
  exact ⟨haccepted, hidentifiers, hlength⟩

end LetFun
