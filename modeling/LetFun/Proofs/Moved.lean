import LetFun.Proofs.Scanning
import LetFun.Proofs.Spelling
/-!
# Trees at other offsets

Trees and tokens whose offsets, and whose names, are replaced all at once. Nothing that relates a
tree to its tokens depends on what the offsets and names are (`SpelledBy.map`), and a laid out text
may start at any offset if its tokens are shifted along (`LaidFrom.shift`).
-/

namespace LetFun

variable (g : Int → Int) (h : String → String)

/-! ## Trees -/

def Span.map (s : Span) : Span :=
  ⟨g s.start, g s.stop⟩

def Identifier.map (i : Identifier) : Identifier :=
  ⟨i.span.map g, h i.name⟩

mutual

def Declaration.map : Declaration → Declaration
  | ⟨s, k, ds⟩ => ⟨s.map g, k, Declarator.mapList ds⟩

def Declarator.map : Declarator → Declarator
  | ⟨s, i, f⟩ => ⟨s.map g, i.map g h, f.map⟩

def Declarator.mapList : List Declarator → List Declarator
  | [] => []
  | d :: ds => d.map :: Declarator.mapList ds

def FunctionExpr.map : FunctionExpr → FunctionExpr
  | ⟨s, i, ps, b⟩ => ⟨s.map g, i.map (Identifier.map g h), ps.map (Identifier.map g h), b.map⟩

def Block.map : Block → Block
  | ⟨s, ds⟩ => ⟨s.map g, Declaration.mapList ds⟩

def Declaration.mapList : List Declaration → List Declaration
  | [] => []
  | d :: ds => d.map :: Declaration.mapList ds

end

def Declaration.shift (k : Int) (d : Declaration) : Declaration :=
  d.map (· + k) fun name => name

def FunctionExpr.shift (k : Int) (f : FunctionExpr) : FunctionExpr :=
  f.map (· + k) fun name => name

theorem Declaration.mapList_eq (ds : List Declaration) :
    Declaration.mapList g h ds = ds.map (Declaration.map g h) := by
  induction ds with
  | nil => rfl
  | cons d ds ih => rw [Declaration.mapList, ih, List.map_cons]

mutual

/-- Moving and renaming leave the tree as deep as it is. -/
theorem Declaration.depth_map (d : Declaration) : (d.map g h).depth = d.depth := by
  cases d with
  | mk s k ds =>
    rw [Declaration.map, Declaration.depth, Declaration.depth, Declarator.depthList_map ds]

theorem Declarator.depth_map (d : Declarator) : (d.map g h).depth = d.depth := by
  cases d with
  | mk s i f => rw [Declarator.map, Declarator.depth, Declarator.depth, FunctionExpr.depth_map f]

theorem Declarator.depthList_map (ds : List Declarator) :
    Declarator.depthList (Declarator.mapList g h ds) = Declarator.depthList ds := by
  cases ds with
  | nil => rfl
  | cons d ds =>
    rw [Declarator.mapList, Declarator.depthList, Declarator.depthList, Declarator.depth_map d,
      Declarator.depthList_map ds]

theorem FunctionExpr.depth_map (f : FunctionExpr) : (f.map g h).depth = f.depth := by
  cases f with
  | mk s i ps b =>
    rw [FunctionExpr.map, FunctionExpr.depth, FunctionExpr.depth, Block.depth_map b]

theorem Block.depth_map (b : Block) : (b.map g h).depth = b.depth := by
  cases b with
  | mk s ds => rw [Block.map, Block.depth, Block.depth, Declaration.depthList_map ds]

theorem Declaration.depthList_map (ds : List Declaration) :
    Declaration.depthList (Declaration.mapList g h ds) = Declaration.depthList ds := by
  cases ds with
  | nil => rfl
  | cons d ds =>
    rw [Declaration.mapList, Declaration.depthList, Declaration.depthList, Declaration.depth_map d,
      Declaration.depthList_map ds]

end

/-! ## Tokens -/

def Token.map (t : Token) : Token :=
  ⟨t.type, if t.type = .identifier then t.value.map h else t.value, g t.start, g t.stop⟩

variable {g h}

/-- Tokens and spans may be moved together. -/
theorem Span.Bounds.map {s : Span} {ts : List Token} (hs : s.Bounds ts) :
    (s.map g).Bounds (ts.map (Token.map g h)) := by
  obtain ⟨hstart, hstop⟩ := hs
  obtain ⟨l, hl, hstart⟩ := Option.map_eq_some_iff.1 hstart
  obtain ⟨r, hr, hstop⟩ := Option.map_eq_some_iff.1 hstop
  refine ⟨?_, ?_⟩
  · rw [List.head?_map, hl, Option.map_some, Option.map_some]
    exact congrArg (fun i => some (g i)) hstart
  · rw [List.getLast?_map, hr, Option.map_some, Option.map_some]
    exact congrArg (fun i => some (g i)) hstop

theorem Identifier.SpelledBy.map {i : Identifier} {t : Token} (hi : i.SpelledBy t) :
    (i.map g h).SpelledBy (t.map g h) := by
  refine ⟨hi.type, ?_, hi.span.map⟩
  show (if t.type = .identifier then t.value.map h else t.value) = some (h i.name)
  rw [if_pos hi.type, hi.value]
  rfl

theorem Identifier.forall₂_map {is : List Identifier} {ts : List Token}
    (his : List.Forall₂ Identifier.SpelledBy is ts) :
    List.Forall₂ Identifier.SpelledBy (is.map (Identifier.map g h)) (ts.map (Token.map g h)) := by
  induction his with
  | nil => exact .nil
  | cons hi _ ih => exact .cons hi.map ih

-- The value of a `let` is a kind, and stays.
theorem Token.map_value {t : Token} (ht : t.type ≠ .identifier) : (t.map g h).value = t.value :=
  if_neg ht

mutual

/-- A declaration that is moved and renamed is spelled by tokens that are; the induction is on the
tree. -/
theorem Declaration.SpelledBy.map {d : Declaration} {ts : List Token} (hd : d.SpelledBy ts) :
    (d.map g h).SpelledBy (ts.map (Token.map g h)) := by
  cases hd with
  | @intro l i a f span inner kind id init hl hkind hid ha hinit hspan hinner =>
    have hkind' : (l.map g h).value = some kind.name := by
      rw [Token.map_value (by simp [hl]), hkind]
    exact .intro hl hkind' hid.map ha hinit.map hspan.map hinner.map

theorem FunctionExpr.SpelledBy.map {f : FunctionExpr} {ts : List Token} (hf : f.SpelledBy ts) :
    (f.map g h).SpelledBy (ts.map (Token.map g h)) := by
  cases hf with
  | @intro f lp rp names ps b span id params body hf hname hlp hparams hrp hbody hspan =>
    have hname' := Identifier.forall₂_map (g := g) (h := h) hname
    rw [← Option.toList_map] at hname'
    have hspan' := hspan.map (g := g) (h := h)
    simp only [List.map_cons, List.map_append] at hspan' ⊢
    exact .intro hf hname' hlp (Identifier.forall₂_map hparams) hrp hbody.map hspan'

theorem Block.SpelledBy.map {b : Block} {ts : List Token} (hb : b.SpelledBy ts) :
    (b.map g h).SpelledBy (ts.map (Token.map g h)) := by
  cases hb with
  | intro hlc hbody hrc hspan =>
    have hspan' := hspan.map (g := g) (h := h)
    simp only [List.map_cons, List.map_append, List.map_nil] at hspan' ⊢
    exact .intro hlc hbody.map hrc hspan'

theorem Declaration.AllSpelledBy.map {ds : List Declaration} {ts : List Token}
    (hds : Declaration.AllSpelledBy ds ts) :
    Declaration.AllSpelledBy (Declaration.mapList g h ds) (ts.map (Token.map g h)) := by
  cases hds with
  | nil => exact .nil
  | cons hd hds =>
    rw [List.map_append]
    exact .cons hd.map hds.map

end

/-! ## Shifting -/

def Token.shift (k : Int) (t : Token) : Token :=
  t.map (· + k) fun name => name

theorem Declaration.SpelledBy.shift {d : Declaration} {ts : List Token} (hd : d.SpelledBy ts)
    (k : Int) : (d.shift k).SpelledBy (ts.map (Token.shift k)) :=
  hd.map

theorem FunctionExpr.SpelledBy.shift {f : FunctionExpr} {ts : List Token} (hf : f.SpelledBy ts)
    (k : Int) : (f.shift k).SpelledBy (ts.map (Token.shift k)) :=
  hf.map

/-- Declarations that are shifted are spelled by tokens that are. -/
theorem Declaration.AllSpelledBy.shift {ds : List Declaration} {ts : List Token}
    (hds : Declaration.AllSpelledBy ds ts) (k : Int) :
    Declaration.AllSpelledBy (ds.map (Declaration.shift k)) (ts.map (Token.shift k)) := by
  have hmap := hds.map (g := (· + k)) (h := fun name => name)
  rw [Declaration.mapList_eq] at hmap
  exact hmap

theorem Declaration.depth_shift (d : Declaration) (k : Int) : (d.shift k).depth = d.depth :=
  Declaration.depth_map _ _ d

theorem FunctionExpr.depth_shift (f : FunctionExpr) (k : Int) : (f.shift k).depth = f.depth :=
  FunctionExpr.depth_map _ _ f

theorem Declaration.depthList_shift (ds : List Declaration) (k : Int) :
    Declaration.depthList (ds.map (Declaration.shift k)) = Declaration.depthList ds := by
  have hmap := Declaration.depthList_map (· + k) (fun name => name) ds
  rw [Declaration.mapList_eq] at hmap
  exact hmap

theorem Declaration.span_shift (d : Declaration) (k : Int) :
    (d.shift k).span = ⟨d.span.start + k, d.span.stop + k⟩ := by
  cases d
  rfl

theorem FunctionExpr.span_shift (f : FunctionExpr) (k : Int) :
    (f.shift k).span = ⟨f.span.start + k, f.span.stop + k⟩ := by
  cases f
  rfl

theorem Token.shift_eq (k : Int) (t : Token) :
    t.shift k = ⟨t.type, t.value, t.start + k, t.stop + k⟩ := by
  unfold shift map
  rw [Option.map_id_fun']
  split <;> rfl

/-- A token that is shifted stands for the same word further back. -/
theorem Token.WrittenAs.shift {t : Token} {pos pos' : Nat} {w : List Char} {k : Int}
    (ht : t.WrittenAs pos w) (hk : (pos' : Int) = pos + k) : (t.shift k).WrittenAs pos' w := by
  rw [Token.shift_eq]
  refine ⟨ht.writes, ht.value, ?_, ?_⟩
  · show t.start + k = pos'
    rw [ht.start, hk]
  · show t.stop + k = pos' + w.length
    rw [ht.stop, hk]
    omega

/-- A laid out text may start at another offset. -/
theorem LaidFrom.shift {strict : Bool} {pos pos' : Nat} {ts : List Token} {cs : List Char} {k : Int}
    (hcs : LaidFrom strict pos ts cs) (hk : (pos' : Int) = pos + k) :
    LaidFrom strict pos' (ts.map (Token.shift k)) cs := by
  induction hcs generalizing pos' with
  | nil => exact .nil
  | cons ht hgap hapart hrest ih =>
    refine .cons (ht.shift hk) hgap (fun hnil hword u hu => ?_) (ih (by omega))
    rw [List.head?_map] at hu
    obtain ⟨v, hv, rfl⟩ := Option.map_eq_some_iff.1 hu
    exact hapart hnil hword v hv

end LetFun
