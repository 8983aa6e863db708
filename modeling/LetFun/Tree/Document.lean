import LetFun.Json
import LetFun.Tree.Walk
/-!
# Trees as JSON values

Every node is an object: its span and type, then the fields of its own.
-/

namespace LetFun

def members (fields : List (String × Json)) : List (Text × Json) :=
  fields.map fun (name, value) => (Text.ofString name, value)

def nodeObject (span : Span) (type : NodeType) (fields : List (String × Json)) : Json :=
  .object (members
    ([("start", .integer span.start), ("end", .integer span.stop), ("type", .ofString type.name)] ++
      fields))

def Identifier.toJson (i : Identifier) : Json :=
  nodeObject i.span .identifier [("name", .ofString i.name)]

mutual

def Declaration.toJson : Declaration → Json
  | ⟨span, kind, ds⟩ =>
    nodeObject span .declaration
      [("kind", .ofString kind.name), ("declarations", .array (Declarator.toJsonList ds))]

def Declarator.toJson : Declarator → Json
  | ⟨span, id, init⟩ => nodeObject span .declarator [("id", id.toJson), ("init", init.toJson)]

def Declarator.toJsonList : List Declarator → List Json
  | [] => []
  | d :: ds => d.toJson :: Declarator.toJsonList ds

/-- The object of a function; one without a name has a null in its place. -/
def FunctionExpr.toJson : FunctionExpr → Json
  | ⟨span, id, params, body⟩ =>
    nodeObject span .functionExpr
      [("id", (id.map Identifier.toJson).getD .null),
       ("params", .array (params.map Identifier.toJson)),
       ("body", body.toJson)]

def Block.toJson : Block → Json
  | ⟨span, body⟩ => nodeObject span .block [("body", .array (Declaration.toJsonList body))]

def Declaration.toJsonList : List Declaration → List Json
  | [] => []
  | d :: ds => d.toJson :: Declaration.toJsonList ds

end

def Program.toJson (p : Program) : Json :=
  nodeObject p.span .program [("body", .array (Declaration.toJsonList p.body))]

def Node.toJson : Node → Json
  | .program p => p.toJson
  | .declaration d => d.toJson
  | .declarator d => d.toJson
  | .identifier i => i.toJson
  | .functionExpr f => f.toJson
  | .block b => b.toJson

end LetFun
