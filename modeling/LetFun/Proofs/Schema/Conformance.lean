import LetFun.Proofs.Document
import LetFun.Proofs.Schema
import LetFun.Proofs.Schema.Integers
/-!
# What conforms to the schema

A value describes a node if it conforms to the table of fields (`Shape.isOk_check_iff`), and two
values describe the same node if they differ only in what does not matter: members that are no
fields, the order of members, fields left out, and other values that count as integers
(`Shape.check_eq_ok_iff`).
-/

namespace LetFun

variable {α : Type} {v w : Json} {vs ws : List Json} {ms ns : Members} {type : NodeType}
  {s : Shape} {x y : Option Json}

namespace Shape

/-! ## Conforming values -/

/-- The value of a field, if the field is there, has a shape. -/
inductive Conforms : Shape → Option Json → Prop where
  | integer {v : Json} {i : Int} (h : v.CountsAs i) : Conforms .integer (some v)
  | untagged {type : NodeType} : Conforms (.tag type) none
  | tag (type : NodeType) : Conforms (.tag type) (some (.ofString type.name))
  | text (s : String) : Conforms .text (some (.ofString s))
  | kind (k : Kind) : Conforms .kind (some (.ofString k.name))
  | node {type : NodeType} {ms : Members}
    (h : ∀ f ∈ type.fields, Conforms f.2 (Json.get? f.1 ms)) :
    Conforms (.node type) (some (.object ms))
  | unnamed : Conforms .functionName none
  | null : Conforms .functionName (some .null)
  | functionName {v : Json} (h : Conforms (.node .identifier) (some v)) :
    Conforms .functionName (some v)
  | unlisted {type : NodeType} : Conforms (.list type) none
  | list {type : NodeType} {vs : List Json} (h : ∀ v ∈ vs, Conforms (.node type) (some v)) :
    Conforms (.list type) (some (.array vs))

/-- The values of a field differ in nothing that matters. -/
inductive Alike : Shape → Option Json → Option Json → Prop where
  | refl (s : Shape) (x : Option Json) : Alike s x x
  | symm {s : Shape} {x y : Option Json} (h : Alike s x y) : Alike s y x
  | trans {s : Shape} {x y z : Option Json} (h : Alike s x y) (h' : Alike s y z) : Alike s x z
  | integer {v w : Json} {i : Int} (hv : v.CountsAs i) (hw : w.CountsAs i) :
    Alike .integer (some v) (some w)
  | untagged (type : NodeType) : Alike (.tag type) none (some (.ofString type.name))
  | node {type : NodeType} {ms ns : Members}
    (h : ∀ f ∈ type.fields, Alike f.2 (Json.get? f.1 ms) (Json.get? f.1 ns)) :
    Alike (.node type) (some (.object ms)) (some (.object ns))
  | unnamed : Alike .functionName none (some .null)
  | functionName {ms ns : Members}
    (h : Alike (.node .identifier) (some (.object ms)) (some (.object ns))) :
    Alike .functionName (some (.object ms)) (some (.object ns))
  | unlisted (type : NodeType) : Alike (.list type) none (some (.array []))
  | list {type : NodeType} {vs ws : List Json} (hlength : vs.length = ws.length)
    (h : ∀ (i : Nat) (v w : Json), vs[i]? = some v → ws[i]? = some w →
      Alike (.node type) (some v) (some w)) :
    Alike (.list type) (some (.array vs)) (some (.array ws))

end Shape

/-! ## Items and names -/

theorem isOk_checkItems (f : Json → Checked α) (vs : List Json) (i : Nat) :
    (checkItems vs i fun v _ => f v).isOk = vs.all fun v => (f v).isOk := by
  induction vs generalizing i with
  | nil => rfl
  | cons v vs ih =>
    show Except.isOk (((Checked.under (.index i) (f v)).both
      (checkItems vs (i + 1) fun w _ => f w)).map fun p => p.1 :: p.2) = _
    rw [Checked.isOk_map, Checked.isOk_both, Checked.isOk_under, ih, List.all_cons]

/-- The check of a list depends on the checks of its items alone. -/
theorem checkItems_congr {f : Json → Checked α} (h : vs.map f = ws.map f) (i : Nat) :
    (checkItems vs i fun v _ => f v) = checkItems ws i fun w _ => f w := by
  induction vs generalizing ws i with
  | nil =>
    rw [List.map_eq_nil_iff.1 h.symm]
  | cons v vs ih =>
    cases ws with
    | nil => cases h
    | cons w ws =>
      rw [List.map_cons, List.map_cons] at h
      obtain ⟨hfirst, hrest⟩ := List.cons.inj h
      show ((Checked.under (.index i) (f v)).both
          (checkItems vs (i + 1) fun w _ => f w)).map (fun p => p.1 :: p.2) =
        ((Checked.under (.index i) (f w)).both
          (checkItems ws (i + 1) fun w _ => f w)).map fun p => p.1 :: p.2
      rw [hfirst, ih hrest]

theorem map_eq_map {f : Json → Checked α} (hlength : vs.length = ws.length)
    (h : ∀ (i : Nat) (v w : Json), vs[i]? = some v → ws[i]? = some w → f v = f w) :
    vs.map f = ws.map f := by
  apply List.ext_getElem?
  intro i
  rw [List.getElem?_map, List.getElem?_map]
  by_cases hi : i < vs.length
  · have hv := List.getElem?_eq_getElem hi
    have hw := List.getElem?_eq_getElem (hlength ▸ hi)
    rw [hv, hw]
    exact congrArg some (h i _ _ hv hw)
  · rw [List.getElem?_eq_none (Nat.le_of_not_lt hi),
      List.getElem?_eq_none (hlength ▸ Nat.le_of_not_lt hi)]

/-- A list passes if each item does, and gives what the items give. -/
theorem checkItems_eq_ok_iff {f : Json → Checked α} {as : List α} (i : Nat) :
    (checkItems vs i fun v _ => f v) = .ok as ↔ vs.map f = as.map .ok := by
  induction vs generalizing as i with
  | nil => cases as <;> simp [checkItems]
  | cons v vs ih =>
    show ((Checked.under (.index i) (f v)).both
      (checkItems vs (i + 1) fun w _ => f w)).map (fun p => p.1 :: p.2) = _ ↔ _
    rw [Except.map_eq_ok_iff]
    simp only [Checked.both_eq_ok_iff, Checked.under_eq_ok_iff, ih]
    constructor
    · rintro ⟨⟨a, as'⟩, ⟨hfirst, hrest⟩, rfl⟩
      rw [List.map_cons, List.map_cons, hfirst, hrest]
    · intro h
      cases as with
      | nil => cases h
      | cons a as =>
        obtain ⟨hfirst, hrest⟩ := List.cons.inj h
        exact ⟨(a, as), ⟨hfirst, hrest⟩, rfl⟩

theorem exists_array {f : Json → Checked α} {as : List α}
    (h : (checkList v fun w _ => f w) = .ok as) : ∃ vs, v = .array vs := by
  cases v with
  | array vs => exact ⟨vs, rfl⟩
  | _ => cases h

/-- The name of a function is a null or an identifier. -/
theorem functionNameOfJson_eq_ok_iff {id : Option Identifier} :
    functionNameOfJson v = .ok id ↔
      v = .null ∧ id = none ∨ ∃ i, Identifier.ofJson v = .ok i ∧ id = some i := by
  have hname (hv : functionNameOfJson v = (Identifier.ofJson v).map some) :
      functionNameOfJson v = .ok id ↔ ∃ i, Identifier.ofJson v = .ok i ∧ id = some i := by
    rw [hv, Except.map_eq_ok_iff]
    simp only [eq_comm]
  cases v with
  | null =>
    constructor
    · intro h
      cases h
      exact .inl ⟨rfl, rfl⟩
    · rintro (⟨-, rfl⟩ | ⟨i, hi, -⟩)
      · rfl
      · cases hi
  | _ =>
    rw [hname rfl]
    simp

/-! ## Scalars -/

/-- Only text without lone surrogates is a string. -/
theorem checkString_eq_ok_iff {t : String} : checkString v = .ok t ↔ v = .ofString t := by
  constructor
  · intro h
    cases v with
    | string text =>
      rw [checkString] at h
      cases htext : text.toString? with
      | none =>
        rw [htext] at h
        cases h
      | some u =>
        rw [htext] at h
        cases h
        rw [Text.toString?_eq_some_iff.1 htext, Json.ofString]
    | _ => cases h
  · rintro rfl
    exact checkString_ofString t

/-- Only the spelling of a kind is taken as one. -/
theorem checkKind_eq_ok_iff {k : Kind} : checkKind v = .ok k ↔ v = .ofString k.name := by
  constructor
  · intro h
    cases v with
    | string text =>
      rw [checkKind] at h
      cases htext : text.toString? with
      | none =>
        rw [htext] at h
        cases h
      | some u =>
        rw [htext] at h
        dsimp only at h
        cases hkind : Kind.ofName? u with
        | none =>
          rw [hkind] at h
          cases h
        | some k' =>
          rw [hkind] at h
          cases h
          rw [Text.toString?_eq_some_iff.1 htext, Kind.name_of_ofName? hkind, Json.ofString]
    | _ => cases h
  · rintro rfl
    exact checkKind_ofString k

/-- Only the tag of a type is taken as one. -/
theorem checkType_eq_ok_iff : checkType type v = .ok () ↔ v = .ofString type.name := by
  constructor
  · intro h
    cases v with
    | string text =>
      rw [checkType] at h
      cases htext : text.toString? with
      | none =>
        rw [htext] at h
        cases h
      | some u =>
        rw [htext] at h
        dsimp only at h
        by_cases hname : u = type.name
        · rw [Text.toString?_eq_some_iff.1 htext, hname, Json.ofString]
        · rw [if_neg hname] at h
          cases h
    | _ => cases h
  · rintro rfl
    exact checkType_ofString type

/-! ## Trees -/

def Shape.toJson : (s : Shape) → s.Value → Json
  | .integer, i => .integer i
  | .tag type, () => .ofString type.name
  | .text, t => .ofString t
  | .kind, k => .ofString k.name
  | .node type, a => type.toJson a
  | .functionName, id => (id.map Identifier.toJson).getD .null
  | .list type, as => .array (as.map type.toJson)

/-- Trees of every type are read back from their objects. -/
theorem NodeType.ofJson_toJson (type : NodeType) (a : type.Tree) :
    type.ofJson (type.toJson a) = .ok a := by
  cases type with
  | program => exact Program.ofJson_toJson a
  | declaration => exact Declaration.ofJson_toJson a
  | declarator => exact Declarator.ofJson_toJson a
  | identifier => exact Identifier.ofJson_toJson a
  | functionExpr => exact FunctionExpr.ofJson_toJson a
  | block => exact Block.ofJson_toJson a

/-- What is taken as a value passes the check for it. -/
theorem Shape.check_toJson (s : Shape) (a : s.Value) : s.check (some (s.toJson a)) = .ok a := by
  cases s with
  | integer => rfl
  | tag type => exact checkType_ofString type
  | text => exact checkString_ofString a
  | kind => exact checkKind_ofString a
  | node type => exact type.ofJson_toJson a
  | functionName => exact functionNameOfJson_toJson a
  | list type =>
    show checkList (.array (a.map type.toJson)) (fun w _ => type.ofJson w) = _
    exact checkList_map fun b _ _ => type.ofJson_toJson b

theorem NodeType.forall_fields {P : String × Shape → Prop} :
    (∀ f ∈ type.fields, P f) ↔ P ("start", .integer) ∧ P ("end", .integer) ∧
      P ("type", .tag type) ∧ ∀ f ∈ type.ownFields, P f := by
  rw [fields, List.forall_mem_append, List.forall_mem_cons, List.forall_mem_cons,
    List.forall_mem_singleton, and_assoc, and_assoc]

-- The span of an object, and that its type is the one wanted.
theorem checkHead_eq_ok_iff {span : Span} :
    checkHead type ms = .ok span ↔
      Shape.integer.check (Json.get? "start" ms) = .ok span.start ∧
        Shape.integer.check (Json.get? "end" ms) = .ok span.stop ∧
        (Shape.tag type).check (Json.get? "type" ms) = .ok () := by
  rw [checkHead_eq, Except.map_eq_ok_iff]
  simp only [Checked.both_eq_ok_iff, Shape.field, Checked.under_eq_ok_iff]
  constructor
  · rintro ⟨⟨start, stop, _⟩, h, rfl⟩
    exact h
  · intro h
    exact ⟨(span.start, span.stop, ()), h, rfl⟩

/-- The fields of an object are taken as those of the tree that it describes. -/
theorem NodeType.exists_toJson_eq {a : type.Tree} (h : type.ofJson (.object ms) = .ok a) :
    ∃ fields, type.toJson a = .object (members fields) ∧
      ∀ f ∈ type.fields, ∃ value : f.2.Value, f.2.check (Json.get? f.1 ms) = .ok value ∧
        fields.lookup f.1 = some (f.2.toJson value) := by
  have hhead {span : Span} {own : List (String × Json)} (hspan : checkHead type ms = .ok span)
      (hown : ∀ f ∈ type.ownFields, ∃ value : f.2.Value,
        f.2.check (Json.get? f.1 ms) = .ok value ∧
          (nodeFields span type own).lookup f.1 = some (f.2.toJson value)) :
      ∀ f ∈ type.fields, ∃ value : f.2.Value, f.2.check (Json.get? f.1 ms) = .ok value ∧
        (nodeFields span type own).lookup f.1 = some (f.2.toJson value) := by
    obtain ⟨hstart, hstop, htype⟩ := checkHead_eq_ok_iff.1 hspan
    exact forall_fields.2
      ⟨⟨span.start, hstart, rfl⟩, ⟨span.stop, hstop, rfl⟩, ⟨(), htype, rfl⟩, hown⟩
  cases type with
  | program =>
    rw [ofJson, Program.ofJson_object, Except.map_eq_ok_iff] at h
    simp only [Checked.both_eq_ok_iff, Shape.field, Checked.under_eq_ok_iff] at h
    obtain ⟨⟨span, body⟩, ⟨hspan, hbody⟩, rfl⟩ := h
    refine ⟨_, by rw [toJson, Program.toJson, Declaration.toJsonList_eq_map]; rfl, hhead hspan ?_⟩
    exact List.forall_mem_singleton.2 ⟨body, hbody, rfl⟩
  | declaration =>
    rw [ofJson, Declaration.ofJson_object, Except.map_eq_ok_iff] at h
    simp only [Checked.both_eq_ok_iff, Shape.field, Checked.under_eq_ok_iff] at h
    obtain ⟨⟨span, kind, ds⟩, ⟨hspan, hkind, hds⟩, rfl⟩ := h
    refine ⟨_, by rw [toJson, Declaration.toJson, Declarator.toJsonList_eq_map]; rfl,
      hhead hspan ?_⟩
    exact List.forall_mem_cons.2 ⟨⟨kind, hkind, rfl⟩, List.forall_mem_singleton.2 ⟨ds, hds, rfl⟩⟩
  | declarator =>
    rw [ofJson, Declarator.ofJson_object, Except.map_eq_ok_iff] at h
    simp only [Checked.both_eq_ok_iff, Shape.field, Checked.under_eq_ok_iff] at h
    obtain ⟨⟨span, id, init⟩, ⟨hspan, hid, hinit⟩, rfl⟩ := h
    refine ⟨_, by rw [toJson, Declarator.toJson]; rfl, hhead hspan ?_⟩
    exact List.forall_mem_cons.2 ⟨⟨id, hid, rfl⟩, List.forall_mem_singleton.2 ⟨init, hinit, rfl⟩⟩
  | identifier =>
    rw [ofJson, Identifier.ofJson_object, Except.map_eq_ok_iff] at h
    simp only [Checked.both_eq_ok_iff, Shape.field, Checked.under_eq_ok_iff] at h
    obtain ⟨⟨span, name⟩, ⟨hspan, hname⟩, rfl⟩ := h
    refine ⟨_, by rw [toJson, Identifier.toJson]; rfl, hhead hspan ?_⟩
    exact List.forall_mem_singleton.2 ⟨name, hname, rfl⟩
  | functionExpr =>
    rw [ofJson, FunctionExpr.ofJson_object, Except.map_eq_ok_iff] at h
    simp only [Checked.both_eq_ok_iff, Shape.field, Checked.under_eq_ok_iff] at h
    obtain ⟨⟨span, id, params, body⟩, ⟨hspan, hid, hparams, hbody⟩, rfl⟩ := h
    refine ⟨_, by rw [toJson, FunctionExpr.toJson]; rfl, hhead hspan ?_⟩
    exact List.forall_mem_cons.2 ⟨⟨id, hid, rfl⟩, List.forall_mem_cons.2
      ⟨⟨params, hparams, rfl⟩, List.forall_mem_singleton.2 ⟨body, hbody, rfl⟩⟩⟩
  | block =>
    rw [ofJson, Block.ofJson_object, Except.map_eq_ok_iff] at h
    simp only [Checked.both_eq_ok_iff, Shape.field, Checked.under_eq_ok_iff] at h
    obtain ⟨⟨span, body⟩, ⟨hspan, hbody⟩, rfl⟩ := h
    refine ⟨_, by rw [toJson, Block.toJson, Declaration.toJsonList_eq_map]; rfl, hhead hspan ?_⟩
    exact List.forall_mem_singleton.2 ⟨body, hbody, rfl⟩

theorem checkObject_of_ne {check : (ms : Members) → sizeOf ms < sizeOf v → Checked α}
    (h : ∀ ms, v ≠ .object ms) : checkObject type v check = .fail (.notObject type) := by
  cases v with
  | object ms => exact absurd rfl (h ms)
  | _ => rfl

/-- What is no object is no node. -/
theorem NodeType.ofJson_of_ne (h : ∀ ms, v ≠ .object ms) :
    type.ofJson v = .fail (.notObject type) := by
  cases type with
  | program => exact checkObject_of_ne h
  | identifier => exact checkObject_of_ne h
  | declaration => rw [ofJson, Declaration.ofJson, checkObject_of_ne h]
  | declarator => rw [ofJson, Declarator.ofJson, checkObject_of_ne h]
  | functionExpr => rw [ofJson, FunctionExpr.ofJson, checkObject_of_ne h]
  | block => rw [ofJson, Block.ofJson, checkObject_of_ne h]

-- Only objects describe nodes.
theorem NodeType.exists_object {a : type.Tree} (h : type.ofJson v = .ok a) :
    ∃ ms, v = .object ms := by
  apply Classical.byContradiction
  intro h'
  rw [NodeType.ofJson_of_ne (not_exists.1 h')] at h
  cases h

namespace Shape

/-- Values that differ in nothing that matters are taken as the same, or have the same faults. -/
theorem Alike.check_eq (h : Alike s x y) : s.check x = s.check y := by
  induction h with
  | refl => rfl
  | symm _ ih => exact ih.symm
  | trans _ _ ih ih' => exact ih.trans ih'
  | @integer v w i hv hw =>
    show checkInteger v = checkInteger w
    rw [checkInteger_eq_ok_iff.2 hv, checkInteger_eq_ok_iff.2 hw]
  | untagged type => exact (checkType_ofString type).symm
  | node _ ih => exact NodeType.ofJson_congr ih
  | unnamed => rfl
  | functionName _ ih => exact congrArg (Except.map some) ih
  | unlisted => rfl
  | @list type vs ws hlength _ ih => exact checkItems_congr (map_eq_map hlength ih) 0

/-- What conforms to a shape passes its check. -/
theorem Conforms.isOk_check (h : Conforms s x) : (s.check x).isOk = true := by
  induction h with
  | @integer v i h =>
    show (checkInteger v).isOk = true
    rw [checkInteger_eq_ok_iff.2 h]
    rfl
  | untagged => rfl
  | tag type => exact congrArg Except.isOk (check_toJson (.tag type) ())
  | text t => exact congrArg Except.isOk (check_toJson .text t)
  | kind k => exact congrArg Except.isOk (check_toJson .kind k)
  | node _ ih =>
    show (NodeType.ofJson _ _).isOk = true
    rw [NodeType.isOk_ofJson_object, List.all_eq_true]
    exact ih
  | unnamed => rfl
  | null => rfl
  | functionName h ih =>
    cases h with
    | @node _ ms =>
      show Except.isOk ((Identifier.ofJson (.object ms)).map some) = true
      rw [Checked.isOk_map]
      exact ih
  | unlisted => rfl
  | @list type vs _ ih =>
    show (checkItems vs 0 fun w _ => type.ofJson w).isOk = true
    rw [isOk_checkItems, List.all_eq_true]
    exact ih

theorem sizeOf_get?_lt (ms : Members) (name : String) :
    sizeOf (Json.get? name ms) < sizeOf (some (Json.object ms)) := by
  rw [Option.some.sizeOf_spec, Json.object.sizeOf_spec]
  cases h : Json.get? name ms with
  | none =>
    rw [Option.none.sizeOf_spec]
    omega
  | some v =>
    have hlt := Json.sizeOf_lt_of_lookup h
    rw [Option.some.sizeOf_spec]
    omega

/-- A value that is taken as a tree, or part of one, conforms to the shape and differs in nothing
that matters from the value of that tree. -/
theorem conforms_and_alike : (s : Shape) → (x : Option Json) → {a : s.Value} → s.check x = .ok a →
    Conforms s x ∧ Alike s x (some (s.toJson a))
  | .integer, some v, i, h => by
    have hcounts := checkInteger_eq_ok_iff.1 h
    exact ⟨.integer hcounts, .integer hcounts (.integer i)⟩
  | .tag type, none, (), _ => ⟨.untagged, .untagged type⟩
  | .tag type, some v, (), h => by
    rw [checkType_eq_ok_iff.1 h]
    exact ⟨.tag type, .refl _ _⟩
  | .text, some v, t, h => by
    rw [checkString_eq_ok_iff.1 h]
    exact ⟨.text t, .refl _ _⟩
  | .kind, some v, k, h => by
    rw [checkKind_eq_ok_iff.1 h]
    exact ⟨.kind k, .refl _ _⟩
  -- The parts of an object are smaller than the object, whatever their shapes.
  | .node type, some v, a, h => by
    obtain ⟨ms, rfl⟩ := NodeType.exists_object h
    obtain ⟨fields, hjson, hfields⟩ := NodeType.exists_toJson_eq h
    have hfield : ∀ f ∈ type.fields, Conforms f.2 (Json.get? f.1 ms) ∧
        Alike f.2 (Json.get? f.1 ms) (Json.get? f.1 (members fields)) := by
      intro f hf
      obtain ⟨value, hcheck, hlookup⟩ := hfields f hf
      have hlt := sizeOf_get?_lt ms f.1
      rw [get?_members, hlookup]
      exact conforms_and_alike f.2 (Json.get? f.1 ms) hcheck
    show _ ∧ Alike _ _ (some (type.toJson a))
    rw [hjson]
    exact ⟨.node fun f hf => (hfield f hf).1, .node fun f hf => (hfield f hf).2⟩
  | .functionName, none, _, h => by
    cases h
    exact ⟨.unnamed, .unnamed⟩
  | .functionName, some v, id, h => by
    rcases functionNameOfJson_eq_ok_iff.1 h with ⟨rfl, rfl⟩ | ⟨i, hi, rfl⟩
    · exact ⟨.null, .refl _ _⟩
    · obtain ⟨hconforms, halike⟩ := conforms_and_alike (.node .identifier) (some v) hi
      -- A name that is no null is an identifier, of the same size but of a shape that comes first.
      have hident : NodeType.ofJson .identifier v = .ok i := hi
      obtain ⟨ms, rfl⟩ := NodeType.exists_object hident
      exact ⟨.functionName hconforms, .functionName halike⟩
  | .list type, none, _, h => by
    cases h
    exact ⟨.unlisted, .unlisted type⟩
  | .list type, some v, as, h => by
    obtain ⟨vs, hvs⟩ := exists_array h
    have hitem : ∀ w ∈ vs, ∀ a, type.ofJson w = .ok a →
        Conforms (.node type) (some w) ∧ Alike (.node type) (some w) (some (type.toJson a)) := by
      intro w hw a ha
      have hlt : sizeOf w < sizeOf v := by
        have hmem := List.sizeOf_lt_of_mem hw
        rw [hvs]
        simp
        omega
      exact conforms_and_alike (.node type) (some w) ha
    rw [hvs] at h ⊢
    -- The items passed the check one by one, so they can be taken by index.
    have hmap : vs.map type.ofJson = as.map .ok := (checkItems_eq_ok_iff 0).1 h
    constructor
    · apply Conforms.list
      intro v hv
      have hmem : type.ofJson v ∈ as.map .ok := hmap ▸ List.mem_map_of_mem hv
      obtain ⟨a, -, ha⟩ := List.mem_map.1 hmem
      exact (hitem v hv a ha.symm).1
    · apply Alike.list
      · have hlength := congrArg List.length hmap
        rw [List.length_map, List.length_map] at hlength
        rw [hlength, List.length_map]
      · intro i v w hv hw
        rw [List.getElem?_map] at hw
        obtain ⟨a, ha, rfl⟩ := Option.map_eq_some_iff.1 hw
        have hi := congrArg (·[i]?) hmap
        simp only [List.getElem?_map, hv, ha, Option.map_some, Option.some.injEq] at hi
        exact (hitem v (List.mem_of_getElem? hv) a hi).2
  | .integer, none, _, h | .text, none, _, h | .kind, none, _, h | .node _, none, _, h => by cases h
termination_by s x => (sizeOf x, match s with | .functionName => 1 | _ => 0)

/-- What conforms to a shape is what is taken as something of that shape. -/
theorem isOk_check_iff : (s.check x).isOk = true ↔ Conforms s x := by
  constructor
  · intro h
    cases hcheck : s.check x with
    | error fs =>
      rw [hcheck] at h
      cases h
    | ok a => exact (conforms_and_alike s x hcheck).1
  · exact Conforms.isOk_check

/-- What a value is taken as depends on nothing but what matters. -/
theorem check_eq_ok_iff {a : s.Value} : s.check x = .ok a ↔ Alike s x (some (s.toJson a)) := by
  constructor
  · exact fun h => (conforms_and_alike s x h).2
  · intro h
    rw [h.check_eq, check_toJson]

end Shape

end LetFun
