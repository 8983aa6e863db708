import LetFun.Proofs.Layout
import LetFun.Proofs.Moved
import LetFun.Proofs.Slices
/-!
# Reading parts of a source again

The text of a declaration is a program of its own, and the text of a function is one behind the
beginning of a declaration; read by themselves they give the same trees at other offsets
(`parseSource_slice`).
-/

namespace LetFun

/-! ## Depths -/

def Node.depth : Node → Nat
  | .program p => p.depth
  | .declaration d => d.depth
  | .declarator d => d.depth
  | .identifier _ => 0
  | .functionExpr f => f.depth
  | .block b => b.depth

theorem Declaration.depth_le_depthList {d : Declaration} {ds : List Declaration} (h : d ∈ ds) :
    d.depth ≤ Declaration.depthList ds := by
  induction ds with
  | nil => cases h
  | cons e ds ih =>
    rw [Declaration.depthList]
    rcases List.mem_cons.1 h with rfl | h
    · exact Nat.le_max_left _ _
    · exact Nat.le_trans (ih h) (Nat.le_max_right _ _)

theorem Declarator.depth_le_depthList {d : Declarator} {ds : List Declarator} (h : d ∈ ds) :
    d.depth ≤ Declarator.depthList ds := by
  induction ds with
  | nil => cases h
  | cons e ds ih =>
    rw [Declarator.depthList]
    rcases List.mem_cons.1 h with rfl | h
    · exact Nat.le_max_left _ _
    · exact Nat.le_trans (ih h) (Nat.le_max_right _ _)

/-- A child is not deeper than its parent. -/
theorem Node.depth_le_of_mem_children {n c : Node} (h : c ∈ n.children) : c.depth ≤ n.depth := by
  cases n with
  | program p =>
    obtain ⟨d, hd, rfl⟩ := List.mem_map.1 h
    exact Declaration.depth_le_depthList hd
  | declaration d =>
    obtain ⟨_, _, ds⟩ := d
    obtain ⟨e, he, rfl⟩ := List.mem_map.1 h
    exact Declarator.depth_le_depthList he
  | declarator d =>
    obtain ⟨_, i, f⟩ := d
    simp only [children, List.mem_cons, List.not_mem_nil, or_false] at h
    rcases h with rfl | rfl
    · exact Nat.zero_le _
    · exact Nat.le_refl f.depth
  | identifier i => cases h
  | functionExpr f =>
    obtain ⟨_, i, ps, b⟩ := f
    simp only [children, List.mem_append, List.mem_map, List.mem_singleton] at h
    rcases h with (⟨i, -, rfl⟩ | ⟨i, -, rfl⟩) | rfl
    · exact Nat.zero_le _
    · exact Nat.zero_le _
    · exact Nat.le_succ b.depth
  | block b =>
    obtain ⟨_, ds⟩ := b
    obtain ⟨d, hd, rfl⟩ := List.mem_map.1 h
    exact Declaration.depth_le_depthList hd

/-- No node of a tree is deeper than the tree. -/
theorem Node.depth_le_of_mem_walk {n m : Node} (h : m ∈ n.walk) : m.depth ≤ n.depth := by
  induction n using Node.induction with
  | h n ih =>
    rw [Node.walk_eq, List.mem_cons] at h
    rcases h with rfl | h
    · exact Nat.le_refl _
    · obtain ⟨c, hc, h⟩ := List.mem_flatMap.1 h
      exact Nat.le_trans (ih c hc h) (Node.depth_le_of_mem_children hc)

/-! ## Parts of a source -/

variable {strict : Bool} {q : List Token} {source : String} {left text right : List Char}

-- The text of tokens may stand behind any other number of characters.
theorem Cut.shift (h : Cut strict q source.toList left text right) {s : Span} (hs : s.Bounds q)
    (pos : Nat) : LaidFrom strict pos (q.map (Token.shift (pos - s.start))) text := by
  refine h.text.laid.shift ?_
  rw [(h.span_eq hs).1]
  omega

-- A declaration alone is a program.
theorem Declaration.SpelledBy.program {d : Declaration} (hd : d.SpelledBy q) :
    (⟨⟨0, d.span.stop⟩, [d]⟩ : Program).SpelledBy q := by
  have hbody : Declaration.AllSpelledBy [d] (q ++ []) := .cons hd .nil
  rw [List.append_nil] at hbody
  refine ⟨hbody, rfl, ?_⟩
  rw [hd.bounds.stop]
  rfl

/-- The text of one declaration has the program with that declaration alone. -/
theorem parseSource_of_declaration [CallStack] {d : Declaration} {cs : List Char}
    (hcs : LaidFrom strict 0 q cs)
    (hd : d.SpelledBy q) (hdepth : d.depth ≤ CallStack.bodies) :
    parseSource (String.ofList cs) strict = .ok ⟨⟨0, d.span.stop⟩, [d]⟩ := by
  refine parseSource_eq_ok_iff.2 ⟨q, ?_, hd.program, ?_⟩
  · exact ⟨[], cs, .nil, String.toList_ofList, hcs⟩
  · rw [Program.depth, Declaration.depthList, Declaration.depthList, Nat.max_zero]
    exact hdepth

/-- A declaration that is cut out of a text is read again from offset 0. -/
theorem Cut.parseSource_declaration [CallStack] {d : Declaration}
    (h : Cut strict q source.toList left text right) (hd : d.SpelledBy q)
    (hdepth : d.depth ≤ CallStack.bodies) :
    parseSource (d.span.slice source) strict =
      .ok ⟨⟨0, d.span.stop - d.span.start⟩, [d.shift (-d.span.start)]⟩ := by
  have hlaid := h.shift hd.bounds 0
  rw [Int.natCast_zero, Int.zero_sub] at hlaid
  have hdepth' : (d.shift (-d.span.start)).depth ≤ CallStack.bodies := by
    rw [Declaration.depth_shift]
    exact hdepth
  rw [h.slice_eq hd.bounds, parseSource_of_declaration hlaid (hd.shift _) hdepth',
    Declaration.span_shift]
  rfl

/-! ## Functions behind the beginning of a declaration -/

/-- The declaration of a function that is written behind `let g = ` at offset 0. -/
def bindingOf (f : FunctionExpr) : Declaration :=
  ⟨⟨0, f.span.stop⟩, .letKind, [⟨⟨0, f.span.stop⟩, ⟨⟨4, 5⟩, "g"⟩, f⟩]⟩

def bindingTokens : List Token :=
  [⟨.letWord, some "let", 0, 3⟩, ⟨.identifier, some "g", 4, 5⟩, ⟨.assign, some "=", 6, 7⟩]

/-- A function with `let g = ` before it is spelled as a declaration. -/
theorem bindingOf_spelledBy {f : FunctionExpr} (hf : f.SpelledBy q) :
    (bindingOf f).SpelledBy (bindingTokens ++ q) := by
  have hspan : Span.Bounds ⟨0, f.span.stop⟩ (bindingTokens ++ q) := by
    refine ⟨rfl, ?_⟩
    obtain ⟨t, ht, hstop⟩ := Option.map_eq_some_iff.1 hf.bounds.stop
    rw [List.getLast?_append, ht, Option.some_or, Option.map_some, hstop]
  exact .intro rfl rfl ⟨rfl, rfl, rfl, rfl⟩ rfl hf hspan hspan

/-- Text that starts at offset 8 has room for `let g = ` before it. -/
theorem laidFrom_binding {ts : List Token} {cs : List Char} (h : LaidFrom strict 8 ts cs) :
    LaidFrom strict 0 (bindingTokens ++ ts) ("let g = ".toList ++ cs) := by
  have hspace : IsGap strict [' '] := by
    intro c hc
    obtain rfl := List.mem_singleton.1 hc
    cases strict <;> decide
  have hletter : TokenType.identifier.Writes ['g'] :=
    ⟨List.cons_ne_nil _ _, List.all_eq_true.1 (by decide), by decide, by decide⟩
  have hassign : LaidFrom strict 6 (⟨.assign, some "=", 6, 7⟩ :: ts) (['='] ++ ([' '] ++ cs)) :=
    .cons ⟨rfl, rfl, rfl, rfl⟩ hspace (fun hnil => (nomatch hnil)) h
  have hname : LaidFrom strict 4 (⟨.identifier, some "g", 4, 5⟩ :: ⟨.assign, some "=", 6, 7⟩ :: ts)
      (['g'] ++ ([' '] ++ (['='] ++ ([' '] ++ cs)))) :=
    .cons ⟨hletter, rfl, rfl, rfl⟩ hspace (fun hnil => (nomatch hnil)) hassign
  have hlet : LaidFrom strict 0 (bindingTokens ++ ts)
      (['l', 'e', 't'] ++ ([' '] ++ (['g'] ++ ([' '] ++ (['='] ++ ([' '] ++ cs)))))) :=
    .cons ⟨rfl, rfl, rfl, rfl⟩ hspace (fun hnil => (nomatch hnil)) hname
  exact hlet

/-- A function that is cut out of a text is read again behind `let g = `. -/
theorem Cut.parseSource_functionExpr [CallStack] {f : FunctionExpr}
    (h : Cut strict q source.toList left text right) (hf : f.SpelledBy q)
    (hdepth : f.depth ≤ CallStack.bodies) :
    parseSource ("let g = " ++ f.span.slice source) strict =
      .ok ⟨⟨0, f.span.stop + (8 - f.span.start)⟩, [bindingOf (f.shift (8 - f.span.start))]⟩ := by
  have hlaid := laidFrom_binding (h.shift hf.bounds 8)
  have hspelled := bindingOf_spelledBy (hf.shift (8 - f.span.start))
  have hdepth' : (bindingOf (f.shift (8 - f.span.start))).depth ≤ CallStack.bodies := by
    rw [bindingOf, Declaration.depth, Declarator.depthList, Declarator.depth, Declarator.depthList,
      Nat.max_zero, FunctionExpr.depth_shift]
    exact hdepth
  have hread := parseSource_of_declaration hlaid hspelled hdepth'
  rw [String.ofList_append, String.ofList_toList] at hread
  rw [h.slice_eq hf.bounds, hread, bindingOf, FunctionExpr.span_shift]

/-- The text of a declaration is a program with nothing but the declaration, and the text of a
function is a function where a declaration needs one. -/
theorem parseSource_slice [CallStack] {source : String} {strict : Bool} {p : Program}
    (h : parseSource source strict = .ok p) :
    (∀ d, .declaration d ∈ (Node.program p).walk → parseSource (d.span.slice source) strict =
      .ok ⟨⟨0, d.span.stop - d.span.start⟩, [d.shift (-d.span.start)]⟩) ∧
    (∀ f, .functionExpr f ∈ (Node.program p).walk →
      parseSource ("let g = " ++ f.span.slice source) strict =
        .ok ⟨⟨0, f.span.stop + (8 - f.span.start)⟩, [bindingOf (f.shift (8 - f.span.start))]⟩) := by
  obtain ⟨ts, hlaid, hspelled, hdepth⟩ := parseSource_eq_ok_iff.1 h
  have hnode := Node.SpelledBy.program hspelled
  have hwalk : ∀ m ∈ (Node.program p).walk, m.depth ≤ CallStack.bodies := fun m hm =>
    Nat.le_trans (Node.depth_le_of_mem_walk hm) hdepth
  constructor
  · intro d hd
    obtain ⟨q, left, text, right, hcut, hpart, -⟩ := hnode.exists_cut hlaid hd nofun
    cases hpart with
    | declaration h => exact hcut.parseSource_declaration h (hwalk _ hd)
  · intro f hf
    obtain ⟨q, left, text, right, hcut, hpart, -⟩ := hnode.exists_cut hlaid hf nofun
    cases hpart with
    | functionExpr h => exact hcut.parseSource_functionExpr h (hwalk _ hf)

def innerFunction : FunctionExpr :=
  ⟨⟨30, 42⟩, none, [], ⟨⟨40, 42⟩, []⟩⟩

def innerDeclaration : Declaration :=
  ⟨⟨23, 42⟩, .letKind, [⟨⟨23, 42⟩, ⟨⟨27, 28⟩, "b"⟩, innerFunction⟩]⟩

theorem innerDeclaration_slice :
    parseSource laidOutSource false = .ok laidOutProgram ∧
      .declaration innerDeclaration ∈ (Node.program laidOutProgram).walk ∧
      parseSource (innerDeclaration.span.slice laidOutSource) false =
        .ok ⟨⟨0, 42 - 23⟩, [innerDeclaration.shift (-23)]⟩ ∧
      .functionExpr innerFunction ∈ (Node.program laidOutProgram).walk ∧
      parseSource ("let g = " ++ innerFunction.span.slice laidOutSource) false =
        .ok ⟨⟨0, 42 + (8 - 30)⟩, [bindingOf (innerFunction.shift (8 - 30))]⟩ := by
  have hread : parseSource laidOutSource false = .ok laidOutProgram := by decide +kernel
  have hd : .declaration innerDeclaration ∈ (Node.program laidOutProgram).walk := by
    decide +kernel
  have hf : .functionExpr innerFunction ∈ (Node.program laidOutProgram).walk := by
    decide +kernel
  exact ⟨hread, hd, (parseSource_slice hread).1 _ hd, hf, (parseSource_slice hread).2 _ hf⟩

end LetFun
