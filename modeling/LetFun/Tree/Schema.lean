import LetFun.Json
import LetFun.Number.Binary
import LetFun.Number.Integer
import LetFun.Tree.Fault
/-!
# Nodes from JSON values

The schema of the six node types. Spans and types come first, then the fields of a node's own;
lists and the name of a function may be absent, and a type, if present, has to be right. Checking
goes on after a fault, so that all faults are reported, in the order of the schema.
-/

namespace LetFun

abbrev Checked (α : Type) := Except (List Fault) α

namespace Checked

variable {α β : Type}

def fail (problem : Problem) : Checked α :=
  .error [.here problem]

def both : Checked α → Checked β → Checked (α × β)
  | .ok a, .ok b => .ok (a, b)
  | .ok _, .error fs => .error fs
  | .error es, .ok _ => .error es
  | .error es, .error fs => .error (es ++ fs)

def under (step : Step) : Checked α → Checked α
  | .ok a => .ok a
  | .error fs => .error (fs.map (Fault.under step))

end Checked

/-! ## Scalars -/

/-- The integer that a value is taken as: an integer itself, a truth value as 0 or 1, a whole number
of moderate size, or text that spells an integer. -/
def checkInteger : Json → Checked Int
  | .integer i => .ok i
  | .bool b => .ok (if b then 1 else 0)
  | .float x =>
    match Binary.ofFloat? x with
    | none => .fail .notFinite
    | some b =>
      match b.toInt? with
      | none => .fail .fractional
      | some i => if i.natAbs < 1 <<< 63 then .ok i else .fail .integerTooLarge
  | .string t =>
    match t.toString? with
    | none => .fail .brokenText
    | some s =>
      match readWhole s.toList with
      | .ok i => .ok i
      | .error .malformed => .fail .notIntegerText
      | .error (.tooManyDigits _) => .fail .integerTooLarge
  | _ => .fail .notInteger

def checkString : Json → Checked String
  | .string t =>
    match t.toString? with
    | some s => .ok s
    | none => .fail .brokenText
  | _ => .fail .notText

def checkKind (v : Json) : Checked Kind :=
  match v with
  | .string t =>
    match t.toString? with
    | none => .fail .brokenText
    | some s =>
      match Kind.ofName? s with
      | some k => .ok k
      | none => .fail .notKind
  | _ => .fail .notKind

def checkType (wanted : NodeType) (v : Json) : Checked Unit :=
  match v with
  | .string t =>
    match t.toString? with
    | none => .fail .brokenText
    | some s => if s = wanted.name then .ok () else .fail (.wrongTag wanted)
  | _ => .fail (.wrongTag wanted)

/-! ## Fields -/

abbrev Members := List (Text × Json)

def required (ms : Members) (name : String)
    (check : (v : Json) → sizeOf v < sizeOf ms → Checked α) : Checked α :=
  match h : Json.get? name ms with
  | none => .error [⟨[.field name], .missing⟩]
  | some v => Checked.under (.field name) (check v (Json.sizeOf_lt_of_lookup h))

/-- A field that has a value of its own when it is absent. -/
def optional (ms : Members) (name : String) (absent : α)
    (check : (v : Json) → sizeOf v < sizeOf ms → Checked α) : Checked α :=
  match h : Json.get? name ms with
  | none => .ok absent
  | some v => Checked.under (.field name) (check v (Json.sizeOf_lt_of_lookup h))

/-- The span of a node whose type, if it is given, is the one wanted. -/
def checkHead (wanted : NodeType) (ms : Members) : Checked Span :=
  let start := required ms "start" fun v _ => checkInteger v
  let stop := required ms "end" fun v _ => checkInteger v
  let type := optional ms "type" () fun v _ => checkType wanted v
  (start.both (stop.both type)).map fun (start, stop, _) => ⟨start, stop⟩

def checkObject (wanted : NodeType) (v : Json)
    (check : (ms : Members) → sizeOf ms < sizeOf v → Checked α) : Checked α :=
  match v with
  | .object ms => check ms (by simp)
  | _ => .fail (.notObject wanted)

def checkItems (items : List Json) (i : Nat)
    (check : (v : Json) → sizeOf v < 1 + sizeOf items → Checked α) : Checked (List α) :=
  match items with
  | [] => .ok []
  | v :: rest =>
    let first := Checked.under (.index i) (check v (by simp; omega))
    let others := checkItems rest (i + 1) fun w h => check w (by simp; omega)
    (first.both others).map fun (a, as) => a :: as

def checkList (v : Json) (check : (w : Json) → sizeOf w < sizeOf v → Checked α) :
    Checked (List α) :=
  match v with
  | .array items => checkItems items 0 fun w h => check w (by simpa using h)
  | _ => .fail .notList

/-! ## Nodes -/

def Identifier.ofJson (v : Json) : Checked Identifier :=
  checkObject .identifier v fun ms _ =>
    let head := checkHead .identifier ms
    let name := required ms "name" fun w _ => checkString w
    (head.both name).map fun (span, name) => ⟨span, name⟩

def functionNameOfJson : Json → Checked (Option Identifier)
  | .null => .ok none
  | v => (Identifier.ofJson v).map some

mutual

def Declaration.ofJson (v : Json) : Checked Declaration :=
  checkObject .declaration v fun ms _ =>
    let head := checkHead .declaration ms
    let kind := required ms "kind" fun w _ => checkKind w
    let declarators := optional ms "declarations" [] fun w _ =>
      checkList w fun x _ => Declarator.ofJson x
    (head.both (kind.both declarators)).map fun (span, kind, ds) => ⟨span, kind, ds⟩
termination_by sizeOf v

def Declarator.ofJson (v : Json) : Checked Declarator :=
  checkObject .declarator v fun ms _ =>
    let head := checkHead .declarator ms
    let id := required ms "id" fun w _ => Identifier.ofJson w
    let init := required ms "init" fun w _ => FunctionExpr.ofJson w
    (head.both (id.both init)).map fun (span, id, init) => ⟨span, id, init⟩
termination_by sizeOf v

def FunctionExpr.ofJson (v : Json) : Checked FunctionExpr :=
  checkObject .functionExpr v fun ms _ =>
    let head := checkHead .functionExpr ms
    let id := optional ms "id" none fun w _ => functionNameOfJson w
    let params := optional ms "params" [] fun w _ => checkList w fun x _ => Identifier.ofJson x
    let body := required ms "body" fun w _ => Block.ofJson w
    (head.both (id.both (params.both body))).map
      fun (span, id, params, body) => ⟨span, id, params, body⟩
termination_by sizeOf v

def Block.ofJson (v : Json) : Checked Block :=
  checkObject .block v fun ms _ =>
    let head := checkHead .block ms
    let body := optional ms "body" [] fun w _ => checkList w fun x _ => Declaration.ofJson x
    (head.both body).map fun (span, body) => ⟨span, body⟩
termination_by sizeOf v

end

def Program.ofJson (v : Json) : Checked Program :=
  checkObject .program v fun ms _ =>
    let head := checkHead .program ms
    let body := optional ms "body" [] fun w _ => checkList w fun x _ => Declaration.ofJson x
    (head.both body).map fun (span, body) => ⟨span, body⟩

def Node.ofJson (type : NodeType) (v : Json) : Except InvalidNode Node :=
  let checked : Checked Node :=
    match type with
    | .program => (Program.ofJson v).map .program
    | .declaration => (Declaration.ofJson v).map .declaration
    | .declarator => (Declarator.ofJson v).map .declarator
    | .identifier => (Identifier.ofJson v).map .identifier
    | .functionExpr => (FunctionExpr.ofJson v).map .functionExpr
    | .block => (Block.ofJson v).map .block
  checked.mapError (⟨type, ·⟩)

end LetFun
