import LetFun.Proofs.Schema.Members
import Mathlib.Data.List.Forall2
import Mathlib.Data.List.Pairwise
/-!
# What is reported about faulty data

A position in data is faulty if the schema leads to it and it is not what the schema wants there
(`Shape.HasFault`). Checking reports every faulty position once, in the order in which the schema
lists the fields and the data lists the items (`Shape.reports_check`).
-/

namespace LetFun

variable {α β : Type} {v : Json} {vs : List Json} {ms : Members} {type : NodeType}
  {s : Shape} {x : Option Json} {f g : Fault} {p q : List Step}

/-! ## Faulty positions -/

namespace Shape

def scalarProblems : Shape → List Problem
  | .integer =>
    [.notInteger, .notIntegerText, .integerTooLarge, .fractional, .notFinite, .brokenText]
  | .tag type => [.wrongTag type, .brokenText]
  | .text => [.notText, .brokenText]
  | .kind => [.notKind, .brokenText]
  | .node _ | .functionName | .list _ => []

/-- A fault of the value of a field, or of a part of it that the schema leads to: an object for each
node, and a list where the schema has one. What is below anything else is not looked at. -/
inductive HasFault : Shape → Option Json → Fault → Prop where
  | missing {s : Shape} (h : s.absent? = none) : HasFault s none (.here .missing)
  | scalar {s : Shape} {v : Json} {problem : Problem} (h : ¬ Conforms s (some v))
      (hproblem : problem ∈ s.scalarProblems) : HasFault s (some v) (.here problem)
  | notObject {type : NodeType} {v : Json} (h : ∀ ms, v ≠ .object ms) :
      HasFault (.node type) (some v) (.here (.notObject type))
  | notList {type : NodeType} {v : Json} (h : ∀ vs, v ≠ .array vs) :
      HasFault (.list type) (some v) (.here .notList)
  | field {type : NodeType} {ms : Members} {f : Fault} {field : String × Shape}
      (hfield : field ∈ type.fields) (h : HasFault field.2 (Json.get? field.1 ms) f) :
      HasFault (.node type) (some (.object ms)) (f.under (.field field.1))
  | functionName {v : Json} {f : Fault} (hnull : v ≠ .null)
      (h : HasFault (.node .identifier) (some v) f) : HasFault .functionName (some v) f
  | item {type : NodeType} {vs : List Json} {v : Json} {i : Nat} {f : Fault} (hv : vs[i]? = some v)
      (h : HasFault (.node type) (some v) f) :
      HasFault (.list type) (some (.array vs)) (f.under (.index i))

/-- The order of positions: by the fields of a node in the order of the schema, by the items of a
list in ascending order, and inside one of these by its own parts. -/
inductive Precedes : Shape → List Step → List Step → Prop where
  | fields {type : NodeType} {a b : String × Shape} (p q : List Step)
      (h : [a, b].Sublist type.fields) :
      Precedes (.node type) (.field a.1 :: p) (.field b.1 :: q)
  | field {type : NodeType} {a : String × Shape} {p q : List Step} (ha : a ∈ type.fields)
      (h : Precedes a.2 p q) : Precedes (.node type) (.field a.1 :: p) (.field a.1 :: q)
  | functionName {p q : List Step} (h : Precedes (.node .identifier) p q) :
      Precedes .functionName p q
  | items {type : NodeType} {i j : Nat} (p q : List Step) (h : i < j) :
      Precedes (.list type) (.index i :: p) (.index j :: q)
  | item {type : NodeType} {p q : List Step} (i : Nat) (h : Precedes (.node type) p q) :
      Precedes (.list type) (.index i :: p) (.index i :: q)

/-- No node has two fields of one name. -/
theorem nodup_fields (type : NodeType) : (type.fields.map Prod.fst).Nodup := by
  cases type <;> simp [NodeType.fields, NodeType.ownFields]

/-- Neither of two positions in order is part of the other. -/
theorem Precedes.not_prefix (h : Precedes s p q) : ¬ p <+: q ∧ ¬ q <+: p := by
  induction h with
  | @fields type a b p q hab =>
    have hnames : [a.1, b.1].Nodup := (nodup_fields type).sublist (hab.map Prod.fst)
    have hne : a.1 ≠ b.1 := by simpa using hnames
    simp [List.cons_prefix_cons, hne, hne.symm]
  | field _ _ ih => simpa [List.cons_prefix_cons] using ih
  | functionName _ ih => exact ih
  | items p q hij =>
    have hne := Nat.ne_of_lt hij
    simp [List.cons_prefix_cons, hne, hne.symm]
  | item i _ ih => simpa [List.cons_prefix_cons] using ih

-- Faults in order are not about parts of one another.
theorem eq_of_prefix {fs : List Fault} (h : fs.Pairwise fun f g => Precedes s f.path g.path)
    (hf : f ∈ fs) (hg : g ∈ fs) (hfg : f.path <+: g.path) : f = g := by
  have hsymm : Std.Symm fun f g : Fault => ¬ f.path <+: g.path ∧ ¬ g.path <+: f.path :=
    ⟨fun _ _ h => h.symm⟩
  by_contra hne
  exact ((h.imp Precedes.not_prefix).forall hf hg hne).1 hfg

end Shape

/-! ## Lists of faults -/

namespace Checked

variable {c : Checked α} {d : Checked β} {step : Step}

def faults : Checked α → List Fault
  | .ok _ => []
  | .error fs => fs

/-- Of two checks the faults of the first come first. -/
theorem faults_both : (c.both d).faults = c.faults ++ d.faults := by
  cases c <;> cases d <;> simp [both, faults]

theorem faults_under : (c.under step).faults = c.faults.map (Fault.under step) := by
  cases c <;> rfl

theorem faults_map (h : α → β) : faults (c.map h) = c.faults := by
  cases c <;> rfl

end Checked

open Shape

/-- The faults of an object are those of its fields, one after the other. -/
theorem NodeType.faults_ofJson_object :
    (type.ofJson (.object ms)).faults = type.fields.flatMap fun a =>
      (a.2.check (Json.get? a.1 ms)).faults.map (Fault.under (.field a.1)) := by
  have hfield (t : Shape) (name : String) : (t.field ms name).faults =
      (t.check (Json.get? name ms)).faults.map (Fault.under (.field name)) := Checked.faults_under
  cases type <;>
    simp [ofJson, fields, ownFields, Program.ofJson_object, Declaration.ofJson_object,
      Declarator.ofJson_object, Identifier.ofJson_object, FunctionExpr.ofJson_object,
      Block.ofJson_object, checkHead_eq, Checked.faults_map, Checked.faults_both, hfield]

/-- The faults of a list are those of its items, one after the other. -/
theorem faults_checkItems (check : Json → Checked α) (vs : List Json) (i : Nat) :
    (checkItems vs i fun v _ => check v).faults = (vs.zipIdx i).flatMap fun m =>
      (check m.1).faults.map (Fault.under (.index m.2)) := by
  induction vs generalizing i with
  | nil => rfl
  | cons v vs ih =>
    show Checked.faults (((Checked.under (.index i) (check v)).both
      (checkItems vs (i + 1) fun w _ => check w)).map fun p => p.1 :: p.2) = _
    rw [Checked.faults_map, Checked.faults_both, Checked.faults_under, ih]
    rfl

/-! ## Reports -/

namespace Shape

/-- What a check reports is what is wrong: there is a fault for each of its entries and an entry for
each faulty position, the entries are in order, and there are none only if all is well. -/
structure Reports (s : Shape) (x : Option Json) (c : Checked α) : Prop where
  sound : ∀ f ∈ c.faults, HasFault s x f
  complete : ∀ f, HasFault s x f → f.path ∈ c.faults.map (·.path)
  inOrder : c.faults.Pairwise fun f g => Precedes s f.path g.path
  isOk : c.faults = [] → c.isOk = true

def Decides (s : Shape) (c : Checked α) : Prop :=
  c.isOk = true ∨ ∃ problem ∈ s.scalarProblems, c = .fail problem

/-- An integer has no parts, so its check has one problem at most. -/
theorem decides_checkInteger (v : Json) : Decides .integer (checkInteger v) := by
  cases v with
  | integer i => exact .inl rfl
  | bool b => exact .inl rfl
  | float x =>
    rw [checkInteger]
    cases Binary.ofFloat? x with
    | none => exact .inr ⟨.notFinite, by decide, rfl⟩
    | some b =>
      dsimp only
      cases b.toInt? with
      | none => exact .inr ⟨.fractional, by decide, rfl⟩
      | some i =>
        dsimp only
        split
        · exact .inl rfl
        · exact .inr ⟨.integerTooLarge, by decide, rfl⟩
  | string t =>
    rw [checkInteger]
    cases t.toString? with
    | none => exact .inr ⟨.brokenText, by decide, rfl⟩
    | some u =>
      dsimp only
      split
      · exact .inl rfl
      · exact .inr ⟨.notIntegerText, by decide, rfl⟩
      · exact .inr ⟨.integerTooLarge, by decide, rfl⟩
  | _ => exact .inr ⟨.notInteger, by decide, rfl⟩

theorem decides_checkString (v : Json) : Decides .text (checkString v) := by
  cases v with
  | string t =>
    rw [checkString]
    cases t.toString? with
    | none => exact .inr ⟨.brokenText, by decide, rfl⟩
    | some u => exact .inl rfl
  | _ => exact .inr ⟨.notText, by decide, rfl⟩

theorem decides_checkKind (v : Json) : Decides .kind (checkKind v) := by
  cases v with
  | string t =>
    rw [checkKind]
    cases t.toString? with
    | none => exact .inr ⟨.brokenText, by decide, rfl⟩
    | some u =>
      dsimp only
      cases Kind.ofName? u with
      | none => exact .inr ⟨.notKind, by decide, rfl⟩
      | some k => exact .inl rfl
  | _ => exact .inr ⟨.notKind, by decide, rfl⟩

theorem decides_checkType (type : NodeType) (v : Json) :
    Decides (.tag type) (checkType type v) := by
  cases v with
  | string t =>
    rw [checkType]
    cases t.toString? with
    | none => exact .inr ⟨.brokenText, by simp [scalarProblems], rfl⟩
    | some u =>
      dsimp only
      split
      · exact .inl rfl
      · exact .inr ⟨.wrongTag type, by simp [scalarProblems], rfl⟩
  | _ => exact .inr ⟨.wrongTag type, by simp [scalarProblems], rfl⟩

theorem reports_fail {problem : Problem} (hfault : HasFault s x (.here problem))
    (hroot : ∀ f, HasFault s x f → f.path = []) :
    Reports s x (.fail problem : Checked α) where
  sound := List.forall_mem_singleton.2 hfault
  complete f hf := by
    rw [hroot f hf]
    exact List.mem_singleton.2 rfl
  inOrder := List.pairwise_singleton ..
  isOk h := by cases h

theorem reports_ok {c : Checked α} (hok : c.isOk = true) (hnone : ∀ f, ¬ HasFault s x f) :
    Reports s x c := by
  cases c with
  | error fs => cases hok
  | ok a => exact ⟨fun _ h => (nomatch h), fun f hf => absurd hf (hnone f), .nil, fun _ => rfl⟩

/-- A value without parts has a fault exactly if it does not conform. -/
theorem reports_scalar (hs : s.scalarProblems ≠ []) (h : Decides s (s.checkValue v)) :
    Reports s (some v) (s.checkValue v) := by
  have hroot : ∀ f, HasFault s (some v) f → ¬ Conforms s (some v) ∧ f.path = [] := by
    intro f hf
    cases hf with
    | scalar hnot => exact ⟨hnot, rfl⟩
    | _ => exact absurd rfl hs
  rcases h with hok | ⟨problem, hmem, hfail⟩
  · exact reports_ok hok fun f hf => (hroot f hf).1 (isOk_check_iff.1 hok)
  · have hnot : ¬ Conforms s (some v) := fun hconforms => by
      have hok := isOk_check_iff.2 hconforms
      rw [check, hfail] at hok
      cases hok
    rw [hfail]
    exact reports_fail (.scalar hnot hmem) fun f hf => (hroot f hf).2

/-- A field that has to be there and is not is one fault. -/
theorem reports_missing (s : Shape) : Reports s none (s.check none) := by
  have hroot : ∀ f, HasFault s none f → s.absent? = none ∧ f.path = [] := by
    intro f hf
    cases hf with
    | missing habsent => exact ⟨habsent, rfl⟩
  cases habsent : s.absent? with
  | none =>
    rw [check, habsent]
    exact reports_fail (.missing habsent) fun f hf => (hroot f hf).2
  | some a =>
    rw [check, habsent]
    refine reports_ok rfl fun f hf => ?_
    cases habsent.symm.trans (hroot f hf).1

/-- An object reports the faults of its fields, one field after the other. -/
theorem reports_object (h : ∀ a ∈ type.fields,
    Reports a.2 (Json.get? a.1 ms) (a.2.check (Json.get? a.1 ms))) :
    Reports (.node type) (some (.object ms)) (type.ofJson (.object ms)) where
  sound f hf := by
    rw [NodeType.faults_ofJson_object] at hf
    obtain ⟨a, ha, hf⟩ := List.mem_flatMap.1 hf
    obtain ⟨g, hg, rfl⟩ := List.mem_map.1 hf
    exact .field ha ((h a ha).sound g hg)
  complete f hf := by
    rw [NodeType.faults_ofJson_object]
    cases hf with
    | scalar _ hmem => cases hmem
    | notObject hne => exact absurd rfl (hne ms)
    | @field _ _ g a ha hg =>
      obtain ⟨g', hg', hpath⟩ := List.mem_map.1 ((h a ha).complete g hg)
      refine List.mem_map.2 ⟨g'.under (.field a.1), ?_, congrArg (Step.field a.1 :: ·) hpath⟩
      exact List.mem_flatMap.2 ⟨a, ha, List.mem_map_of_mem hg'⟩
  inOrder := by
    rw [NodeType.faults_ofJson_object, List.pairwise_flatMap]
    constructor
    · intro a ha
      exact List.pairwise_map.2 ((h a ha).inOrder.imp fun hfg => .field ha hfg)
    -- Different fields report in the order of the schema.
    · refine List.pairwise_iff_forall_sublist.2 fun hab f hf g hg => ?_
      obtain ⟨f, -, rfl⟩ := List.mem_map.1 hf
      obtain ⟨g, -, rfl⟩ := List.mem_map.1 hg
      exact .fields f.path g.path hab
  isOk hnone := by
    rw [NodeType.faults_ofJson_object, List.flatMap_eq_nil_iff] at hnone
    rw [NodeType.isOk_ofJson_object, List.all_eq_true]
    exact fun a ha => (h a ha).isOk (List.map_eq_nil_iff.1 (hnone a ha))

/-- A list reports the faults of its items, one item after the other. -/
theorem reports_array (h : ∀ v ∈ vs, Reports (.node type) (some v) (type.ofJson v)) :
    Reports (.list type) (some (.array vs)) (checkItems vs 0 fun v _ => type.ofJson v) where
  sound f hf := by
    rw [faults_checkItems] at hf
    obtain ⟨⟨v, i⟩, hv, hf⟩ := List.mem_flatMap.1 hf
    obtain ⟨g, hg, rfl⟩ := List.mem_map.1 hf
    have hi := List.mem_zipIdx_iff_getElem?.1 hv
    exact .item hi ((h v (List.mem_of_getElem? hi)).sound g hg)
  complete f hf := by
    rw [faults_checkItems]
    cases hf with
    | scalar _ hmem => cases hmem
    | notList hne => exact absurd rfl (hne vs)
    | @item _ _ v i g hi hg =>
      obtain ⟨g', hg', hpath⟩ := List.mem_map.1 ((h v (List.mem_of_getElem? hi)).complete g hg)
      refine List.mem_map.2 ⟨g'.under (.index i), ?_, congrArg (Step.index i :: ·) hpath⟩
      exact List.mem_flatMap.2
        ⟨(v, i), List.mem_zipIdx_iff_getElem?.2 hi, List.mem_map_of_mem hg'⟩
  inOrder := by
    rw [faults_checkItems, List.pairwise_flatMap]
    constructor
    · rintro ⟨v, i⟩ hv
      have hmem := List.mem_of_getElem? (List.mem_zipIdx_iff_getElem?.1 hv)
      exact List.pairwise_map.2 ((h v hmem).inOrder.imp fun hfg => .item i hfg)
    -- Different items report at different indexes, and the indexes ascend.
    · have hascending : (vs.zipIdx.map Prod.snd).Pairwise (· < ·) := by
        rw [List.zipIdx_map_snd]
        exact List.pairwise_lt_range'
      refine (List.pairwise_map.1 hascending).imp fun hij f hf g hg => ?_
      obtain ⟨f, -, rfl⟩ := List.mem_map.1 hf
      obtain ⟨g, -, rfl⟩ := List.mem_map.1 hg
      exact .items f.path g.path hij
  isOk hnone := by
    rw [faults_checkItems, List.flatMap_eq_nil_iff] at hnone
    rw [isOk_checkItems, List.all_eq_true]
    intro v hv
    obtain ⟨i, hi⟩ := List.getElem?_of_mem hv
    have hfaults := hnone (v, i) (List.mem_zipIdx_iff_getElem?.2 hi)
    exact (h v hv).isOk (List.map_eq_nil_iff.1 hfaults)

/-- A name that is no null reports what an identifier does. -/
theorem reports_functionName (h : Reports (.node .identifier) (some v) (Identifier.ofJson v)) :
    Reports .functionName (some v) (functionNameOfJson v) := by
  by_cases hnull : v = .null
  · rw [hnull]
    refine reports_ok rfl fun f hf => ?_
    cases hf with
    | scalar _ hmem => cases hmem
    | functionName hne => exact hne rfl
  · have hfaults : functionNameOfJson v = (Identifier.ofJson v).map some := by
      cases v with
      | null => exact absurd rfl hnull
      | _ => rfl
    rw [hfaults]
    constructor
    · intro f hf
      rw [Checked.faults_map] at hf
      exact .functionName hnull (h.sound f hf)
    · intro f hf
      rw [Checked.faults_map]
      cases hf with
      | scalar _ hmem => cases hmem
      | functionName _ hf => exact h.complete f hf
    · rw [Checked.faults_map]
      exact h.inOrder.imp .functionName
    · rw [Checked.faults_map, Checked.isOk_map]
      exact h.isOk

/-- A check reports the faults of a value, whatever its shape. -/
theorem reports_check : (s : Shape) → (x : Option Json) → Reports s x (s.check x)
  | s, none => reports_missing s
  | .integer, some v => reports_scalar (by decide) (decides_checkInteger v)
  | .tag type, some v => reports_scalar (by simp [scalarProblems]) (decides_checkType type v)
  | .text, some v => reports_scalar (by decide) (decides_checkString v)
  | .kind, some v => reports_scalar (by decide) (decides_checkKind v)
  | .node type, some v => by
    by_cases hv : ∃ ms, v = .object ms
    · obtain ⟨ms, hms⟩ := hv
      have hfield : ∀ a ∈ type.fields,
          Reports a.2 (Json.get? a.1 ms) (a.2.check (Json.get? a.1 ms)) := by
        intro a _
        -- The induction is on the value: fields and items are smaller than what they are in.
        have hlt := sizeOf_get?_lt ms a.1
        rw [← hms] at hlt
        exact reports_check a.2 (Json.get? a.1 ms)
      rw [hms]
      exact reports_object hfield
    · have hne : ∀ ms, v ≠ .object ms := not_exists.1 hv
      show Reports _ _ (type.ofJson v)
      rw [NodeType.ofJson_of_ne hne]
      refine reports_fail (.notObject hne) fun f hf => ?_
      cases hf with
      | scalar _ hmem => cases hmem
      | notObject => rfl
      | field => exact absurd rfl (hne _)
  | .functionName, some v => reports_functionName (reports_check (.node .identifier) (some v))
  | .list type, some v => by
    by_cases hv : ∃ vs, v = .array vs
    · obtain ⟨vs, hvs⟩ := hv
      have hitem : ∀ w ∈ vs, Reports (.node type) (some w) (type.ofJson w) := by
        intro w hw
        have hlt : sizeOf w < sizeOf v := by
          have hmem := List.sizeOf_lt_of_mem hw
          rw [hvs]
          simp
          omega
        exact reports_check (.node type) (some w)
      rw [hvs]
      exact reports_array hitem
    · have hne : ∀ vs, v ≠ .array vs := not_exists.1 hv
      have hfail : (Shape.list type).check (some v) = .fail .notList := by
        cases v with
        | array vs => exact absurd rfl (hne vs)
        | _ => rfl
      rw [hfail]
      refine reports_fail (.notList hne) fun f hf => ?_
      cases hf with
      | scalar _ hmem => cases hmem
      | notList => rfl
      | item => exact absurd rfl (hne _)
termination_by s x => (sizeOf x, match s with | .functionName => 1 | _ => 0)

end Shape

/-! ## Nodes -/

def NodeType.node : (type : NodeType) → type.Tree → Node
  | .program => .program
  | .declaration => .declaration
  | .declarator => .declarator
  | .identifier => .identifier
  | .functionExpr => .functionExpr
  | .block => .block

theorem Node.ofJson_eq (type : NodeType) (v : Json) :
    Node.ofJson type v = ((type.ofJson v).map type.node).mapError (⟨type, ·⟩) := by
  cases type <;> rfl

theorem NodeType.type_node (type : NodeType) (a : type.Tree) : (type.node a).type = type := by
  cases type <;> rfl

/-- Data describes a node if no position in it is faulty. Otherwise every faulty position is
reported once, in order, and no two reports are about parts of one another. The order of members
makes no difference. -/
theorem Node.ofJson_reports (type : NodeType) (v : Json) :
    ((∃ n, Node.ofJson type v = .ok n ∧ n.type = type ∧ ∀ f, ¬ HasFault (.node type) (some v) f) ∨
      ∃ fs, Node.ofJson type v = .error ⟨type, fs⟩ ∧ fs ≠ [] ∧
        (∀ f ∈ fs, HasFault (.node type) (some v) f) ∧
        (∀ f, HasFault (.node type) (some v) f → f.path ∈ fs.map (·.path)) ∧
        (fs.map (·.path)).Nodup ∧
        (∀ f ∈ fs, ∀ g ∈ fs, f.path <+: g.path → f = g) ∧
        (fs.map (·.path)).Pairwise (Precedes (.node type))) ∧
    ∀ w, v.SameMembers w → Node.ofJson type w = Node.ofJson type v := by
  constructor
  · obtain ⟨hsound, hcomplete, horder, hok⟩ : Reports (.node type) (some v) (type.ofJson v) :=
      reports_check (.node type) (some v)
    rw [Node.ofJson_eq]
    cases hcheck : type.ofJson v with
    | ok a =>
      rw [hcheck] at hcomplete
      exact .inl ⟨type.node a, rfl, type.type_node a, fun f hf => nomatch hcomplete f hf⟩
    | error fs =>
      rw [hcheck] at hsound hcomplete horder hok
      refine .inr ⟨fs, rfl, ?_, hsound, hcomplete, ?_, ?_, List.pairwise_map.2 horder⟩
      · rintro rfl
        cases hok rfl
      -- Positions in order are different, as none precedes itself.
      · refine List.pairwise_map.2 (horder.imp fun h heq => ?_)
        exact h.not_prefix.1 (heq ▸ List.prefix_rfl)
      · exact fun f hf g hg => eq_of_prefix horder hf hg
  · intro w h
    have hcheck : type.ofJson v = type.ofJson w := h.check_eq (.node type)
    rw [Node.ofJson_eq, Node.ofJson_eq, hcheck]

/-- A program with a body of three items: null, an empty object, and a declaration of a binding that
has no start, a name that is no text, and a truth value for its function. -/
def faultyMembers : Members :=
  members [("body", .array [.null, .object [], .object (members [("end", .integer 9),
      ("declarations", .array [.object (members [("id", .object (members [("name", .null)])),
        ("init", .bool true), ("end", .integer 9)])]),
      ("kind", .ofString "let"), ("start", .integer 3)])]),
    ("type", .ofString "Block"), ("start", .ofString "0")]

def faultsOfMembers : List Fault :=
  [⟨[.field "end"], .missing⟩, ⟨[.field "type"], .wrongTag .program⟩,
    ⟨[.field "body", .index 0], .notObject .declaration⟩,
    ⟨[.field "body", .index 1, .field "start"], .missing⟩,
    ⟨[.field "body", .index 1, .field "end"], .missing⟩,
    ⟨[.field "body", .index 1, .field "kind"], .missing⟩,
    ⟨[.field "body", .index 2, .field "declarations", .index 0, .field "start"], .missing⟩,
    ⟨[.field "body", .index 2, .field "declarations", .index 0, .field "id", .field "start"],
      .missing⟩,
    ⟨[.field "body", .index 2, .field "declarations", .index 0, .field "id", .field "end"],
      .missing⟩,
    ⟨[.field "body", .index 2, .field "declarations", .index 0, .field "id", .field "name"],
      .notText⟩,
    ⟨[.field "body", .index 2, .field "declarations", .index 0, .field "init"],
      .notObject .functionExpr⟩]

/-- The eleven faults are all there are, in either order of the members. -/
theorem faultyMembers_reports :
    Node.ofJson .program (.object faultyMembers) = .error ⟨.program, faultsOfMembers⟩ ∧
      (∀ f, HasFault (.node .program) (some (.object faultyMembers)) f →
        f.path ∈ faultsOfMembers.map (·.path)) ∧
      Node.ofJson .program (.object faultyMembers.reverse) =
        .error ⟨.program, faultsOfMembers⟩ := by
  have hcheck : Node.ofJson .program (.object faultyMembers) =
      .error ⟨.program, faultsOfMembers⟩ := by decide +kernel
  obtain ⟨hreports, hsame⟩ := Node.ofJson_reports .program (.object faultyMembers)
  have hreverse := hsame (.object faultyMembers.reverse)
    (.of_perm (by decide) (List.reverse_perm _).symm)
  refine ⟨hcheck, ?_, hreverse.trans hcheck⟩
  obtain ⟨n, hn, -⟩ | ⟨fs, hfs, -, -, hcomplete, -⟩ := hreports
  · cases hcheck.symm.trans hn
  · cases hcheck.symm.trans hfs
    exact hcomplete

end LetFun
