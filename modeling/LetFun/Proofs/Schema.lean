import LetFun.Tree.Document
import LetFun.Tree.Schema
/-!
# The schema as data

Every node type has a table of fields, each with the shape that its value must have
(`NodeType.fields`). Checking an object for a node is checking the values of these fields, whatever
else is in the object: it is accepted if they all are (`NodeType.isOk_ofJson_object`), and they
decide on the node and on the faults (`NodeType.ofJson_congr`).
-/

namespace LetFun

variable {α β : Type}

/-! ## Checks -/

namespace Checked

variable {x : Checked α} {y : Checked β} {step : Step}

/-- Two checks succeed together if each does. -/
theorem both_eq_ok_iff {p : α × β} : x.both y = .ok p ↔ x = .ok p.1 ∧ y = .ok p.2 := by
  obtain ⟨a, b⟩ := p
  cases x <;> cases y <;> simp [both]

theorem under_eq_ok_iff {a : α} : x.under step = .ok a ↔ x = .ok a := by
  cases x <;> simp [under]

theorem isOk_both : (x.both y).isOk = (x.isOk && y.isOk) := by
  cases x <;> cases y <;> rfl

theorem isOk_under : (x.under step).isOk = x.isOk := by
  cases x <;> rfl

theorem isOk_map (f : α → β) : Except.isOk (x.map f) = x.isOk := by
  cases x <;> rfl

end Checked

/-! ## Tables of fields -/

/-- What the value of a field has to be. -/
inductive Shape where
  | integer
  | tag (type : NodeType)
  | text
  | kind
  | node (type : NodeType)
  | functionName
  | list (type : NodeType)

namespace NodeType

def ownFields : NodeType → List (String × Shape)
  | .program => [("body", .list .declaration)]
  | .declaration => [("kind", .kind), ("declarations", .list .declarator)]
  | .declarator => [("id", .node .identifier), ("init", .node .functionExpr)]
  | .identifier => [("name", .text)]
  | .functionExpr =>
    [("id", .functionName), ("params", .list .identifier), ("body", .node .block)]
  | .block => [("body", .list .declaration)]

def fields (type : NodeType) : List (String × Shape) :=
  [("start", .integer), ("end", .integer), ("type", .tag type)] ++ type.ownFields

abbrev Tree : NodeType → Type
  | .program => Program
  | .declaration => Declaration
  | .declarator => Declarator
  | .identifier => Identifier
  | .functionExpr => FunctionExpr
  | .block => Block

def ofJson : (type : NodeType) → Json → Checked type.Tree
  | .program => Program.ofJson
  | .declaration => Declaration.ofJson
  | .declarator => Declarator.ofJson
  | .identifier => Identifier.ofJson
  | .functionExpr => FunctionExpr.ofJson
  | .block => Block.ofJson

def toJson : (type : NodeType) → type.Tree → Json
  | .program => Program.toJson
  | .declaration => Declaration.toJson
  | .declarator => Declarator.toJson
  | .identifier => Identifier.toJson
  | .functionExpr => FunctionExpr.toJson
  | .block => Block.toJson

end NodeType

namespace Shape

abbrev Value : Shape → Type
  | .integer => Int
  | .tag _ => Unit
  | .text => String
  | .kind => Kind
  | .node type => type.Tree
  | .functionName => Option Identifier
  | .list type => List type.Tree

/-- What a field is taken as when it is absent, if it may be absent. -/
def absent? : (s : Shape) → Option s.Value
  | .tag _ => some ()
  | .functionName => some none
  | .list _ => some []
  | .integer | .text | .kind | .node _ => none

def checkValue : (s : Shape) → Json → Checked s.Value
  | .integer, v => checkInteger v
  | .tag type, v => checkType type v
  | .text, v => checkString v
  | .kind, v => checkKind v
  | .node type, v => type.ofJson v
  | .functionName, v => functionNameOfJson v
  | .list type, v => checkList v fun w _ => type.ofJson w

def check (s : Shape) : Option Json → Checked s.Value
  | some v => s.checkValue v
  | none =>
    match s.absent? with
    | some a => .ok a
    | none => .fail .missing

def field (s : Shape) (ms : Members) (name : String) : Checked s.Value :=
  (s.check (Json.get? name ms)).under (.field name)

variable {s : Shape} {ms : Members} {name : String}

/-- A field that has to be there is checked by its shape. -/
theorem required_eq {f : Json → Checked s.Value} (hf : s.checkValue = f)
    (habsent : s.absent? = none) : required ms name (fun v _ => f v) = s.field ms name := by
  subst hf
  unfold required field
  split
  · next h =>
    rw [h, Shape.check, habsent]
    rfl
  · next v h =>
    rw [show s.check (Json.get? name ms) = s.checkValue v from congrArg s.check h]

/-- A field that may be absent is checked by its shape, too. -/
theorem optional_eq {f : Json → Checked s.Value} {a : s.Value} (hf : s.checkValue = f)
    (habsent : s.absent? = some a) : optional ms name a (fun v _ => f v) = s.field ms name := by
  subst hf
  unfold optional field
  split
  · next h =>
    rw [h, Shape.check, habsent]
    rfl
  · next v h =>
    rw [show s.check (Json.get? name ms) = s.checkValue v from congrArg s.check h]

end Shape

/-! ## Objects -/

open Shape

variable (ms : Members)

/-- The head of a node is checked field by field. -/
theorem checkHead_eq (type : NodeType) :
    checkHead type ms = ((field .integer ms "start").both
      ((field .integer ms "end").both (field (.tag type) ms "type"))).map
        fun (start, stop, _) => ⟨start, stop⟩ := by
  have hstart : required ms "start" (fun v _ => checkInteger v) = field .integer ms "start" :=
    required_eq (s := .integer) rfl rfl
  have hstop : required ms "end" (fun v _ => checkInteger v) = field .integer ms "end" :=
    required_eq (s := .integer) rfl rfl
  have htype : optional ms "type" () (fun v _ => checkType type v) = field (.tag type) ms "type" :=
    optional_eq (s := .tag type) rfl rfl
  unfold checkHead
  rw [hstart, hstop, htype]

theorem Identifier.ofJson_object : Identifier.ofJson (.object ms) =
    ((checkHead .identifier ms).both (field .text ms "name")).map
      fun (span, name) => ⟨span, name⟩ := by
  have hname : required ms "name" (fun w _ => checkString w) = field .text ms "name" :=
    required_eq (s := .text) rfl rfl
  rw [Identifier.ofJson, checkObject, hname]

theorem Declaration.ofJson_object : Declaration.ofJson (.object ms) =
    ((checkHead .declaration ms).both
      ((field .kind ms "kind").both (field (.list .declarator) ms "declarations"))).map
        fun (span, kind, ds) => ⟨span, kind, ds⟩ := by
  have hkind : required ms "kind" (fun w _ => checkKind w) = field .kind ms "kind" :=
    required_eq (s := .kind) rfl rfl
  have hlist :
      optional ms "declarations" [] (fun w _ => checkList w fun x _ => Declarator.ofJson x) =
        field (.list .declarator) ms "declarations" :=
    optional_eq (s := .list .declarator) rfl rfl
  rw [Declaration.ofJson, checkObject, hkind, hlist]

theorem Declarator.ofJson_object : Declarator.ofJson (.object ms) =
    ((checkHead .declarator ms).both
      ((field (.node .identifier) ms "id").both (field (.node .functionExpr) ms "init"))).map
        fun (span, id, init) => ⟨span, id, init⟩ := by
  have hid : required ms "id" (fun w _ => Identifier.ofJson w) =
      field (.node .identifier) ms "id" :=
    required_eq (s := .node .identifier) rfl rfl
  have hinit : required ms "init" (fun w _ => FunctionExpr.ofJson w) =
      field (.node .functionExpr) ms "init" :=
    required_eq (s := .node .functionExpr) rfl rfl
  rw [Declarator.ofJson, checkObject, hid, hinit]

/-- The fields of a function are checked in the order of the schema. -/
theorem FunctionExpr.ofJson_object : FunctionExpr.ofJson (.object ms) =
    ((checkHead .functionExpr ms).both ((field .functionName ms "id").both
      ((field (.list .identifier) ms "params").both (field (.node .block) ms "body")))).map
        fun (span, id, params, body) => ⟨span, id, params, body⟩ := by
  have hid : optional ms "id" none (fun w _ => functionNameOfJson w) =
      field .functionName ms "id" :=
    optional_eq (s := .functionName) rfl rfl
  have hparams : optional ms "params" [] (fun w _ => checkList w fun x _ => Identifier.ofJson x) =
      field (.list .identifier) ms "params" :=
    optional_eq (s := .list .identifier) rfl rfl
  have hbody : required ms "body" (fun w _ => Block.ofJson w) = field (.node .block) ms "body" :=
    required_eq (s := .node .block) rfl rfl
  rw [FunctionExpr.ofJson, checkObject, hid, hparams, hbody]

theorem declarations_eq :
    optional ms "body" [] (fun w _ => checkList w fun x _ => Declaration.ofJson x) =
      field (.list .declaration) ms "body" :=
  optional_eq (s := .list .declaration) rfl rfl

theorem Block.ofJson_object : Block.ofJson (.object ms) =
    ((checkHead .block ms).both (field (.list .declaration) ms "body")).map
      fun (span, body) => ⟨span, body⟩ := by
  rw [Block.ofJson, checkObject, declarations_eq]

theorem Program.ofJson_object : Program.ofJson (.object ms) =
    ((checkHead .program ms).both (field (.list .declaration) ms "body")).map
      fun (span, body) => ⟨span, body⟩ := by
  rw [Program.ofJson, checkObject, declarations_eq]

namespace NodeType

variable {ms} {ns : Members} {type : NodeType}

/-- A field passes if what is there does. -/
theorem isOk_field (s : Shape) (name : String) :
    (s.field ms name).isOk = (s.check (Json.get? name ms)).isOk :=
  Checked.isOk_under

/-- An object describes a node if its fields have values of their shapes. -/
theorem isOk_ofJson_object :
    (type.ofJson (.object ms)).isOk =
      type.fields.all fun f => (f.2.check (Json.get? f.1 ms)).isOk := by
  have hhead : (checkHead type ms).isOk =
      ((Shape.integer.check (Json.get? "start" ms)).isOk &&
        ((Shape.integer.check (Json.get? "end" ms)).isOk &&
          ((Shape.tag type).check (Json.get? "type" ms)).isOk)) := by
    rw [checkHead_eq, Checked.isOk_map, Checked.isOk_both, Checked.isOk_both, isOk_field,
      isOk_field, isOk_field]
  have hand : type.fields.all (fun f => (f.2.check (Json.get? f.1 ms)).isOk) =
      ((checkHead type ms).isOk &&
        type.ownFields.all fun f => (f.2.check (Json.get? f.1 ms)).isOk) := by
    rw [fields, List.all_append, hhead]
    simp
  -- What remains is to look at the own fields of each type.
  rw [hand]
  cases type with
  | program =>
    rw [ofJson, Program.ofJson_object, Checked.isOk_map, Checked.isOk_both, isOk_field]
    simp [ownFields]
  | declaration =>
    rw [ofJson, Declaration.ofJson_object, Checked.isOk_map, Checked.isOk_both, Checked.isOk_both,
      isOk_field, isOk_field]
    simp [ownFields]
  | declarator =>
    rw [ofJson, Declarator.ofJson_object, Checked.isOk_map, Checked.isOk_both, Checked.isOk_both,
      isOk_field, isOk_field]
    simp [ownFields]
  | identifier =>
    rw [ofJson, Identifier.ofJson_object, Checked.isOk_map, Checked.isOk_both, isOk_field]
    simp [ownFields]
  | functionExpr =>
    rw [ofJson, FunctionExpr.ofJson_object, Checked.isOk_map, Checked.isOk_both, Checked.isOk_both,
      Checked.isOk_both, isOk_field, isOk_field, isOk_field]
    simp [ownFields]
  | block =>
    rw [ofJson, Block.ofJson_object, Checked.isOk_map, Checked.isOk_both, isOk_field]
    simp [ownFields]

/-- Objects whose fields are checked alike describe the same node, or have the same faults. -/
theorem ofJson_congr
    (h : ∀ f ∈ type.fields, f.2.check (Json.get? f.1 ms) = f.2.check (Json.get? f.1 ns)) :
    type.ofJson (.object ms) = type.ofJson (.object ns) := by
  have hfield : ∀ f ∈ type.fields, f.2.field ms f.1 = f.2.field ns f.1 := by
    intro f hf
    unfold Shape.field
    rw [h f hf]
  rw [fields, List.forall_mem_append] at hfield
  obtain ⟨hhead, hown⟩ := hfield
  simp only [List.forall_mem_cons, List.not_mem_nil, false_imp_iff, implies_true, and_true] at hhead
  have hspan : checkHead type ms = checkHead type ns := by
    rw [checkHead_eq, checkHead_eq, hhead.1, hhead.2.1, hhead.2.2]
  cases type with
  | program =>
    rw [ofJson, Program.ofJson_object, Program.ofJson_object, hspan,
      (List.forall_mem_cons.1 hown).1]
  | declaration =>
    obtain ⟨hkind, hlist, -⟩ := by simpa only [ownFields, List.forall_mem_cons] using hown
    rw [ofJson, Declaration.ofJson_object, Declaration.ofJson_object, hspan, hkind, hlist]
  | declarator =>
    obtain ⟨hid, hinit, -⟩ := by simpa only [ownFields, List.forall_mem_cons] using hown
    rw [ofJson, Declarator.ofJson_object, Declarator.ofJson_object, hspan, hid, hinit]
  | identifier =>
    rw [ofJson, Identifier.ofJson_object, Identifier.ofJson_object, hspan,
      (List.forall_mem_cons.1 hown).1]
  | functionExpr =>
    obtain ⟨hid, hparams, hbody, -⟩ := by simpa only [ownFields, List.forall_mem_cons] using hown
    rw [ofJson, FunctionExpr.ofJson_object, FunctionExpr.ofJson_object, hspan, hid, hparams, hbody]
  | block =>
    rw [ofJson, Block.ofJson_object, Block.ofJson_object, hspan, (List.forall_mem_cons.1 hown).1]

end NodeType

end LetFun
