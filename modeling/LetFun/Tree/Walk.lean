import LetFun.Tree
/-!
# Walking trees

A node is an occurrence of any of the six kinds of tree part. `Node.walk` lists a node and all its
descendants in source order: each node right before the walks of its children (`walk_eq`). The
header of a node is what it shows by itself, without its children.
-/

namespace LetFun

inductive NodeType where
  | program
  | declaration
  | declarator
  | identifier
  | functionExpr
  | block
deriving DecidableEq, Repr

namespace NodeType

def all : List NodeType :=
  [.program, .declaration, .declarator, .identifier, .functionExpr, .block]

def name : NodeType → String
  | .program => "Program"
  | .declaration => "VariableDeclaration"
  | .declarator => "VariableDeclarator"
  | .identifier => "Identifier"
  | .functionExpr => "FunctionExpression"
  | .block => "BlockStatement"

def ofName? (name : String) : Option NodeType :=
  all.find? (·.name = name)

theorem ofName?_name (t : NodeType) : ofName? t.name = some t := by
  cases t <;> decide

end NodeType

inductive Node where
  | program (p : Program)
  | declaration (d : Declaration)
  | declarator (d : Declarator)
  | identifier (i : Identifier)
  | functionExpr (f : FunctionExpr)
  | block (b : Block)
deriving DecidableEq

namespace Node

def type : Node → NodeType
  | .program _ => .program
  | .declaration _ => .declaration
  | .declarator _ => .declarator
  | .identifier _ => .identifier
  | .functionExpr _ => .functionExpr
  | .block _ => .block

def span : Node → Span
  | .program p => p.span
  | .declaration d => d.span
  | .declarator d => d.span
  | .identifier i => i.span
  | .functionExpr f => f.span
  | .block b => b.span

/-- The parts that a node is directly made of, in source order. -/
def children : Node → List Node
  | .program p => p.body.map .declaration
  | .declaration d => d.declarators.map .declarator
  | .declarator d => [.identifier d.id, .functionExpr d.init]
  | .identifier _ => []
  | .functionExpr f => f.id.toList.map .identifier ++ f.params.map .identifier ++ [.block f.body]
  | .block b => b.body.map .declaration

end Node

mutual

def Declaration.walk : Declaration → List Node
  | ⟨s, k, ds⟩ => .declaration ⟨s, k, ds⟩ :: Declarator.walkList ds

def Declarator.walk : Declarator → List Node
  | ⟨s, i, f⟩ => .declarator ⟨s, i, f⟩ :: .identifier i :: f.walk

def Declarator.walkList : List Declarator → List Node
  | [] => []
  | d :: ds => d.walk ++ Declarator.walkList ds

def FunctionExpr.walk : FunctionExpr → List Node
  | ⟨s, i, ps, b⟩ =>
    .functionExpr ⟨s, i, ps, b⟩ ::
      (i.toList.map .identifier ++ ps.map .identifier ++ b.walk)

def Block.walk : Block → List Node
  | ⟨s, ds⟩ => .block ⟨s, ds⟩ :: Declaration.walkList ds

def Declaration.walkList : List Declaration → List Node
  | [] => []
  | d :: ds => d.walk ++ Declaration.walkList ds

end

def Program.walk (p : Program) : List Node :=
  .program p :: Declaration.walkList p.body

namespace Node

def walk : Node → List Node
  | .program p => p.walk
  | .declaration d => d.walk
  | .declarator d => d.walk
  | .identifier i => [.identifier i]
  | .functionExpr f => f.walk
  | .block b => b.walk

end Node

theorem Declarator.walkList_eq (ds : List Declarator) :
    Declarator.walkList ds = (ds.map Node.declarator).flatMap Node.walk := by
  induction ds with
  | nil => rfl
  | cons d ds ih => simp [Declarator.walkList, Node.walk, ih]

/-- A walk over declarations is one walk after the other. -/
theorem Declaration.walkList_eq (ds : List Declaration) :
    Declaration.walkList ds = (ds.map Node.declaration).flatMap Node.walk := by
  induction ds with
  | nil => rfl
  | cons d ds ih => simp [Declaration.walkList, Node.walk, ih]

theorem Node.flatMap_walk_identifier (is : List Identifier) :
    (is.map Node.identifier).flatMap Node.walk = is.map Node.identifier := by
  induction is with
  | nil => rfl
  | cons i is ih => simp [Node.walk, ih]

-- A walk is the node itself and then the walks of its children, in order.
theorem Node.walk_eq (n : Node) : n.walk = n :: n.children.flatMap Node.walk := by
  cases n with
  | program p => simp [Node.walk, Program.walk, Node.children, Declaration.walkList_eq]
  | declaration d =>
    obtain ⟨s, k, ds⟩ := d
    simp [Node.walk, Declaration.walk, Node.children, Declarator.walkList_eq]
  | declarator d =>
    obtain ⟨s, i, f⟩ := d
    simp [Node.walk, Declarator.walk, Node.children]
  | identifier i => simp [Node.walk, Node.children]
  | functionExpr f =>
    obtain ⟨s, i, ps, b⟩ := f
    simp [Node.walk, FunctionExpr.walk, Node.children, Node.flatMap_walk_identifier]
  | block b =>
    obtain ⟨s, ds⟩ := b
    simp [Node.walk, Block.walk, Node.children, Declaration.walkList_eq]

/-- What a node shows without its children: its type and span, its name or kind, and how many
children of each sort it has. -/
inductive Header where
  | program (span : Span) (statements : Nat)
  | declaration (span : Span) (kind : Kind) (declarators : Nat)
  | declarator (span : Span)
  | identifier (span : Span) (name : String)
  | functionExpr (span : Span) (named : Bool) (params : Nat)
  | block (span : Span) (statements : Nat)
deriving DecidableEq, Repr

def Node.header : Node → Header
  | .program p => .program p.span p.body.length
  | .declaration d => .declaration d.span d.kind d.declarators.length
  | .declarator d => .declarator d.span
  | .identifier i => .identifier i.span i.name
  | .functionExpr f => .functionExpr f.span f.id.isSome f.params.length
  | .block b => .block b.span b.body.length

end LetFun
