/-!
# Syntax trees

A program is a list of declarations; a declaration binds identifiers to function expressions,
whose bodies are blocks of declarations again. Every node carries the half-open span of offsets it
was read from. Equality of trees is decidable.
-/

namespace LetFun

/-- A half-open span of offsets, from `start` up to but not including `stop`. -/
structure Span where
  start : Int
  stop : Int
deriving DecidableEq, Repr

structure Identifier where
  span : Span
  name : String
deriving DecidableEq, Repr

/-- The keywords that may introduce a declaration. Source text has only `let`. -/
inductive Kind where
  | varKind
  | letKind
  | constKind
deriving DecidableEq, Repr

namespace Kind

def all : List Kind := [.varKind, .letKind, .constKind]

def name : Kind → String
  | .varKind => "var"
  | .letKind => "let"
  | .constKind => "const"

def ofName? (name : String) : Option Kind :=
  all.find? (·.name = name)

theorem ofName?_name (k : Kind) : ofName? k.name = some k := by
  cases k <;> decide

theorem name_of_ofName? {s : String} {k : Kind} (h : ofName? s = some k) : k.name = s := by
  simpa using List.find?_some h

end Kind

mutual

structure Declaration where
  span : Span
  kind : Kind
  declarators : List Declarator

structure Declarator where
  span : Span
  id : Identifier
  init : FunctionExpr

structure FunctionExpr where
  span : Span
  id : Option Identifier
  params : List Identifier
  body : Block

structure Block where
  span : Span
  body : List Declaration

end

structure Program where
  span : Span
  body : List Declaration

mutual

def Declaration.decEq : (d e : Declaration) → Decidable (d = e)
  | ⟨s, k, ds⟩, ⟨s', k', ds'⟩ =>
    have := Declarator.decEqList ds ds'
    decidable_of_iff (s = s' ∧ k = k' ∧ ds = ds') (by simp)

def Declarator.decEq : (d e : Declarator) → Decidable (d = e)
  | ⟨s, i, f⟩, ⟨s', i', f'⟩ =>
    have := FunctionExpr.decEq f f'
    decidable_of_iff (s = s' ∧ i = i' ∧ f = f') (by simp)

def Declarator.decEqList : (ds es : List Declarator) → Decidable (ds = es)
  | [], [] => .isTrue rfl
  | [], _ :: _ => .isFalse (by simp)
  | _ :: _, [] => .isFalse (by simp)
  | d :: ds, e :: es =>
    have := Declarator.decEq d e
    have := Declarator.decEqList ds es
    decidable_of_iff (d = e ∧ ds = es) (by simp)

def FunctionExpr.decEq : (f g : FunctionExpr) → Decidable (f = g)
  | ⟨s, i, ps, b⟩, ⟨s', i', ps', b'⟩ =>
    have := Block.decEq b b'
    decidable_of_iff (s = s' ∧ i = i' ∧ ps = ps' ∧ b = b') (by simp)

def Block.decEq : (b c : Block) → Decidable (b = c)
  | ⟨s, ds⟩, ⟨s', ds'⟩ =>
    have := Declaration.decEqList ds ds'
    decidable_of_iff (s = s' ∧ ds = ds') (by simp)

def Declaration.decEqList : (ds es : List Declaration) → Decidable (ds = es)
  | [], [] => .isTrue rfl
  | [], _ :: _ => .isFalse (by simp)
  | _ :: _, [] => .isFalse (by simp)
  | d :: ds, e :: es =>
    have := Declaration.decEq d e
    have := Declaration.decEqList ds es
    decidable_of_iff (d = e ∧ ds = es) (by simp)

end

instance : DecidableEq Declaration := Declaration.decEq

instance : DecidableEq Declarator := Declarator.decEq

instance : DecidableEq FunctionExpr := FunctionExpr.decEq

instance : DecidableEq Block := Block.decEq

deriving instance DecidableEq for Program

mutual

/-- How deeply functions are nested in a declaration; one function alone counts one. -/
def Declaration.depth : Declaration → Nat
  | ⟨_, _, ds⟩ => Declarator.depthList ds

def Declarator.depth : Declarator → Nat
  | ⟨_, _, f⟩ => f.depth

def Declarator.depthList : List Declarator → Nat
  | [] => 0
  | d :: ds => max d.depth (Declarator.depthList ds)

def FunctionExpr.depth : FunctionExpr → Nat
  | ⟨_, _, _, b⟩ => b.depth + 1

def Block.depth : Block → Nat
  | ⟨_, ds⟩ => Declaration.depthList ds

def Declaration.depthList : List Declaration → Nat
  | [] => 0
  | d :: ds => max d.depth (Declaration.depthList ds)

end

def Program.depth (p : Program) : Nat :=
  Declaration.depthList p.body

end LetFun
