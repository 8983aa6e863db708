import LetFun.Proofs.Json.RoundTrip
import LetFun.Tree.Document
import LetFun.Tree.Schema
/-!
# Trees as JSON values and back

The object of a tree is checked to be that tree (`Program.ofJson_toJson`), and it is read back from
its text if its offsets can be shown: a function takes six levels of arrays and objects
(`Program.readable_toJson`).
-/

namespace LetFun

variable {α : Type} {fields : List (String × Json)} {name : String} {v : Json}

/-! ## Fields -/

theorem get?_members (fields : List (String × Json)) (name : String) :
    Json.get? name (members fields) = fields.lookup name := by
  induction fields with
  | nil => rfl
  | cons field fields ih =>
    obtain ⟨key, value⟩ := field
    have hkey : (Text.ofString name == Text.ofString key) = (name == key) := by
      rw [Bool.eq_iff_iff, beq_iff_eq, beq_iff_eq]
      exact ⟨Text.ofString_injective, congrArg Text.ofString⟩
    rw [List.lookup_cons, ← ih]
    show List.lookup _ ((Text.ofString key, value) :: members fields) = _
    rw [List.lookup_cons, hkey]
    rfl

/-- A field among the members passes its check if its value does. -/
theorem required_members {check : (w : Json) → sizeOf w < sizeOf (members fields) → Checked α}
    {a : α} (hfield : fields.lookup name = some v) (hcheck : ∀ h, check v h = .ok a) :
    required (members fields) name check = .ok a := by
  rw [← get?_members] at hfield
  rw [required]
  split
  · next h => cases hfield.symm.trans h
  · next h =>
    cases hfield.symm.trans h
    rw [hcheck]
    rfl

/-- A field that may be absent passes its check if it is there and its value does. -/
theorem optional_members {check : (w : Json) → sizeOf w < sizeOf (members fields) → Checked α}
    {a absent : α} (hfield : fields.lookup name = some v) (hcheck : ∀ h, check v h = .ok a) :
    optional (members fields) name absent check = .ok a := by
  rw [← get?_members] at hfield
  rw [optional]
  split
  · next h => cases hfield.symm.trans h
  · next h =>
    cases hfield.symm.trans h
    rw [hcheck]
    rfl

/-! ## Scalars -/

theorem checkString_ofString (s : String) : checkString (.ofString s) = .ok s := by
  rw [Json.ofString, checkString, Text.toString?_ofString]

theorem checkKind_ofString (k : Kind) : checkKind (.ofString k.name) = .ok k := by
  rw [Json.ofString, checkKind, Text.toString?_ofString]
  simp only [Kind.ofName?_name]

theorem checkType_ofString (type : NodeType) : checkType type (.ofString type.name) = .ok () := by
  rw [Json.ofString, checkType, Text.toString?_ofString]
  exact if_pos rfl

/-! ## Nodes -/

abbrev nodeFields (span : Span) (type : NodeType) (fields : List (String × Json)) :
    List (String × Json) :=
  [("start", .integer span.start), ("end", .integer span.stop), ("type", .ofString type.name)] ++
    fields

/-- The fields of a node begin with its span and its type. -/
theorem checkHead_nodeFields (span : Span) (type : NodeType) (fields : List (String × Json)) :
    checkHead type (members (nodeFields span type fields)) = .ok span := by
  rw [checkHead, required_members (v := .integer span.start) (a := span.start) rfl fun _ => rfl,
    required_members (v := .integer span.stop) (a := span.stop) rfl fun _ => rfl,
    optional_members (v := .ofString type.name) (a := ()) rfl fun _ => checkType_ofString type]
  rfl

/-- A list whose items are written one by one is read one by one. -/
theorem checkItems_map {f : α → Json} {as : List α} {i : Nat}
    {check : (w : Json) → sizeOf w < 1 + sizeOf (as.map f) → Checked α}
    (h : ∀ a ∈ as, ∀ hlt, check (f a) hlt = .ok a) : checkItems (as.map f) i check = .ok as := by
  induction as generalizing i with
  | nil => rfl
  | cons a as ih =>
    rw [List.forall_mem_cons] at h
    show ((Checked.under (.index i) (check (f a) _)).both
      (checkItems (as.map f) (i + 1) fun w hw => check w _)).map (fun p => p.1 :: p.2) = _
    rw [h.1, ih fun a ha hlt => h.2 a ha _]
    rfl

theorem checkList_map {f : α → Json} {as : List α}
    {check : (w : Json) → sizeOf w < sizeOf (Json.array (as.map f)) → Checked α}
    (h : ∀ a ∈ as, ∀ hlt, check (f a) hlt = .ok a) :
    checkList (.array (as.map f)) check = .ok as :=
  checkItems_map fun a ha _ => h a ha _

theorem sizeOf_members_lt (span : Span) (type : NodeType) (fields : List (String × Json)) :
    sizeOf (members (nodeFields span type fields)) < sizeOf (nodeObject span type fields) := by
  simp [nodeObject]

/-- The object of a node is checked by its fields. -/
theorem checkObject_nodeObject {wanted : NodeType} {span : Span} {type : NodeType}
    {check : (ms : Members) → sizeOf ms < sizeOf (nodeObject span type fields) → Checked α} :
    checkObject wanted (nodeObject span type fields) check =
      check (members (nodeFields span type fields)) (sizeOf_members_lt span type fields) :=
  rfl

theorem Identifier.ofJson_toJson (i : Identifier) : Identifier.ofJson i.toJson = .ok i := by
  obtain ⟨span, name⟩ := i
  rw [Identifier.toJson, Identifier.ofJson, checkObject_nodeObject, checkHead_nodeFields,
    required_members rfl fun _ => checkString_ofString name]
  rfl

theorem functionNameOfJson_toJson (id : Option Identifier) :
    functionNameOfJson ((id.map Identifier.toJson).getD .null) = .ok id := by
  cases id with
  | none => rfl
  | some i =>
    show functionNameOfJson i.toJson = _
    rw [functionNameOfJson, Identifier.ofJson_toJson]
    · rfl
    · exact fun h => (nomatch h)

theorem Declarator.toJsonList_eq_map (ds : List Declarator) :
    Declarator.toJsonList ds = ds.map Declarator.toJson := by
  induction ds with
  | nil => rfl
  | cons d ds ih => rw [Declarator.toJsonList, ih, List.map_cons]

theorem Declaration.toJsonList_eq_map (ds : List Declaration) :
    Declaration.toJsonList ds = ds.map Declaration.toJson := by
  induction ds with
  | nil => rfl
  | cons d ds ih => rw [Declaration.toJsonList, ih, List.map_cons]

mutual

/-- Every declaration is read back from its object; the induction is on the tree. -/
theorem Declaration.ofJson_toJson : (d : Declaration) → Declaration.ofJson d.toJson = .ok d
  | ⟨span, kind, ds⟩ => by
    have hds := Declarator.forall_ofJson_toJson ds
    rw [Declaration.toJson, Declarator.toJsonList_eq_map, Declaration.ofJson,
      checkObject_nodeObject, checkHead_nodeFields,
      required_members rfl fun _ => checkKind_ofString kind,
      optional_members rfl fun _ => checkList_map fun d hd _ => hds d hd]
    rfl

theorem Declarator.ofJson_toJson : (d : Declarator) → Declarator.ofJson d.toJson = .ok d
  | ⟨span, id, init⟩ => by
    rw [Declarator.toJson, Declarator.ofJson, checkObject_nodeObject, checkHead_nodeFields,
      required_members rfl fun _ => Identifier.ofJson_toJson id,
      required_members rfl fun _ => FunctionExpr.ofJson_toJson init]
    rfl

theorem Declarator.forall_ofJson_toJson :
    (ds : List Declarator) → ∀ d ∈ ds, Declarator.ofJson d.toJson = .ok d
  | [] => fun _ h => (nomatch h)
  | d :: ds => List.forall_mem_cons.2
    ⟨Declarator.ofJson_toJson d, Declarator.forall_ofJson_toJson ds⟩

theorem FunctionExpr.ofJson_toJson : (f : FunctionExpr) → FunctionExpr.ofJson f.toJson = .ok f
  | ⟨span, id, params, body⟩ => by
    rw [FunctionExpr.toJson, FunctionExpr.ofJson, checkObject_nodeObject, checkHead_nodeFields,
      optional_members rfl fun _ => functionNameOfJson_toJson id,
      optional_members rfl fun _ => checkList_map fun i _ _ => Identifier.ofJson_toJson i,
      required_members rfl fun _ => Block.ofJson_toJson body]
    rfl

theorem Block.ofJson_toJson : (b : Block) → Block.ofJson b.toJson = .ok b
  | ⟨span, body⟩ => by
    have hbody := Declaration.forall_ofJson_toJson body
    rw [Block.toJson, Declaration.toJsonList_eq_map, Block.ofJson, checkObject_nodeObject,
      checkHead_nodeFields, optional_members rfl fun _ => checkList_map fun d hd _ => hbody d hd]
    rfl

theorem Declaration.forall_ofJson_toJson :
    (ds : List Declaration) → ∀ d ∈ ds, Declaration.ofJson d.toJson = .ok d
  | [] => fun _ h => (nomatch h)
  | d :: ds => List.forall_mem_cons.2
    ⟨Declaration.ofJson_toJson d, Declaration.forall_ofJson_toJson ds⟩

end

/-- The object of a program describes that program. -/
theorem Program.ofJson_toJson (p : Program) : Program.ofJson p.toJson = .ok p := by
  obtain ⟨span, body⟩ := p
  rw [Program.toJson, Declaration.toJsonList_eq_map, Program.ofJson, checkObject_nodeObject,
    checkHead_nodeFields,
    optional_members rfl fun _ => checkList_map fun d _ _ => Declaration.ofJson_toJson d]
  rfl

/-! ## Text -/

/-- Both offsets are written with no more digits than the limit. -/
structure Span.IsShowable (s : Span) : Prop where
  start : isShowable s.start = true
  stop : isShowable s.stop = true

instance (s : Span) : Decidable s.IsShowable :=
  decidable_of_iff (isShowable s.start = true ∧ isShowable s.stop = true)
    ⟨fun h => ⟨h.1, h.2⟩, fun h => ⟨h.start, h.stop⟩⟩

/-- Members with different names are read back if their values are. -/
theorem readable_members {room : Nat} (hnames : (fields.map Prod.fst).Nodup)
    (hvalues : ∀ f ∈ fields, Json.Readable room f.2) :
    Json.Readable (room + 1) (.object (members fields)) := by
  have hkeys : (members fields).map Prod.fst = (fields.map Prod.fst).map Text.ofString := by
    rw [members, List.map_map, List.map_map]
    rfl
  apply Json.Readable.object
  · rw [hkeys]
    exact List.Pairwise.map Text.ofString (fun _ _ hne h => hne (Text.ofString_injective h)) hnames
  · exact List.forall_mem_map.2 fun f _ => ⟨f.1, rfl⟩
  · exact List.forall_mem_map.2 hvalues

theorem readable_nodeObject {room : Nat} {span : Span} {type : NodeType} (hspan : span.IsShowable)
    (hnames : (["start", "end", "type"] ++ fields.map Prod.fst).Nodup)
    (hvalues : ∀ f ∈ fields, Json.Readable room f.2) :
    Json.Readable (room + 1) (nodeObject span type fields) := by
  apply readable_members
  · exact hnames
  · simp only [List.cons_append, List.nil_append, List.forall_mem_cons]
    exact ⟨.integer hspan.start, .integer hspan.stop, .string type.name, hvalues⟩

theorem Identifier.readable_toJson {i : Identifier} (hi : i.span.IsShowable) {room : Nat}
    (hroom : 1 ≤ room) : Json.Readable room i.toJson := by
  obtain ⟨room, rfl⟩ := Nat.exists_eq_add_of_le' hroom
  apply readable_nodeObject hi (by simp)
  rw [List.forall_mem_singleton]
  exact .string i.name

/-- A function alone is one deep. -/
theorem FunctionExpr.depth_pos (f : FunctionExpr) : 0 < f.depth := by
  cases f
  exact Nat.succ_pos _

mutual

/-- Each function puts six more arrays and objects inside one another. -/
theorem Declaration.readable_toJson : (d : Declaration) → (∀ n ∈ d.walk, n.span.IsShowable) →
    ∀ {room : Nat}, 6 * d.depth + 2 ≤ room → Json.Readable room d.toJson
  | ⟨span, kind, ds⟩, hspans, room, hroom => by
    rw [Declaration.walk, List.forall_mem_cons] at hspans
    rw [Declaration.depth] at hroom
    obtain ⟨room, rfl⟩ : ∃ r, room = r + 2 := ⟨room - 2, by omega⟩
    apply readable_nodeObject hspans.1 (by simp)
    rw [List.forall_mem_cons, List.forall_mem_singleton]
    exact ⟨.string kind.name,
      .array (Declarator.readable_toJsonList ds hspans.2 (by omega))⟩

theorem Declarator.readable_toJson : (d : Declarator) → (∀ n ∈ d.walk, n.span.IsShowable) →
    ∀ {room : Nat}, 6 * d.depth ≤ room → Json.Readable room d.toJson
  | ⟨span, id, init⟩, hspans, room, hroom => by
    rw [Declarator.walk, List.forall_mem_cons, List.forall_mem_cons] at hspans
    rw [Declarator.depth] at hroom
    have hpositive := FunctionExpr.depth_pos init
    obtain ⟨room, rfl⟩ : ∃ r, room = r + 1 := ⟨room - 1, by omega⟩
    apply readable_nodeObject hspans.1 (by simp)
    rw [List.forall_mem_cons, List.forall_mem_singleton]
    exact ⟨Identifier.readable_toJson hspans.2.1 (by omega),
      FunctionExpr.readable_toJson init hspans.2.2 hroom⟩

theorem Declarator.readable_toJsonList : (ds : List Declarator) →
    (∀ n ∈ Declarator.walkList ds, n.span.IsShowable) → ∀ {room : Nat},
    6 * Declarator.depthList ds ≤ room → ∀ v ∈ Declarator.toJsonList ds, Json.Readable room v
  | [], _, _, _ => fun _ h => (nomatch h)
  | d :: ds, hspans, room, hroom => by
    rw [Declarator.walkList, List.forall_mem_append] at hspans
    rw [Declarator.depthList] at hroom
    rw [Declarator.toJsonList, List.forall_mem_cons]
    exact ⟨Declarator.readable_toJson d hspans.1 (by omega),
      Declarator.readable_toJsonList ds hspans.2 (by omega)⟩

theorem FunctionExpr.readable_toJson : (f : FunctionExpr) → (∀ n ∈ f.walk, n.span.IsShowable) →
    ∀ {room : Nat}, 6 * f.depth ≤ room + 1 → Json.Readable room f.toJson
  | ⟨span, id, params, body⟩, hspans, room, hroom => by
    rw [FunctionExpr.walk, List.forall_mem_cons, List.forall_mem_append,
      List.forall_mem_append] at hspans
    rw [FunctionExpr.depth] at hroom
    obtain ⟨hspan, ⟨hid, hparams⟩, hbody⟩ := hspans
    rw [List.forall_mem_map] at hid hparams
    obtain ⟨room, rfl⟩ : ∃ r, room = r + 2 := ⟨room - 2, by omega⟩
    apply readable_nodeObject hspan (by simp)
    rw [List.forall_mem_cons, List.forall_mem_cons, List.forall_mem_singleton]
    refine ⟨?_, .array (List.forall_mem_map.2 fun i hi => ?_),
      Block.readable_toJson body hbody (by omega)⟩
    · cases id with
      | none => exact .null
      | some i => exact Identifier.readable_toJson (hid i List.mem_cons_self) (by omega)
    · exact Identifier.readable_toJson (hparams i hi) (by omega)

theorem Block.readable_toJson : (b : Block) → (∀ n ∈ b.walk, n.span.IsShowable) →
    ∀ {room : Nat}, 6 * b.depth + 4 ≤ room → Json.Readable room b.toJson
  | ⟨span, body⟩, hspans, room, hroom => by
    rw [Block.walk, List.forall_mem_cons] at hspans
    rw [Block.depth] at hroom
    obtain ⟨room, rfl⟩ : ∃ r, room = r + 2 := ⟨room - 2, by omega⟩
    apply readable_nodeObject hspans.1 (by simp)
    rw [List.forall_mem_singleton]
    exact .array (Declaration.readable_toJsonList body hspans.2 (by omega))

theorem Declaration.readable_toJsonList : (ds : List Declaration) →
    (∀ n ∈ Declaration.walkList ds, n.span.IsShowable) → ∀ {room : Nat},
    6 * Declaration.depthList ds + 2 ≤ room → ∀ v ∈ Declaration.toJsonList ds, Json.Readable room v
  | [], _, _, _ => fun _ h => (nomatch h)
  | d :: ds, hspans, room, hroom => by
    rw [Declaration.walkList, List.forall_mem_append] at hspans
    rw [Declaration.depthList] at hroom
    rw [Declaration.toJsonList, List.forall_mem_cons]
    exact ⟨Declaration.readable_toJson d hspans.1 (by omega),
      Declaration.readable_toJsonList ds hspans.2 (by omega)⟩

end

/-- The object of a program is read back if there is room for six levels for each function. -/
theorem Program.readable_toJson {p : Program} (hspans : ∀ n ∈ p.walk, n.span.IsShowable)
    {room : Nat} (hroom : 6 * p.depth + 4 ≤ room) : Json.Readable room p.toJson := by
  rw [Program.walk, List.forall_mem_cons] at hspans
  rw [Program.depth] at hroom
  obtain ⟨room, rfl⟩ : ∃ r, room = r + 2 := ⟨room - 2, by omega⟩
  apply readable_nodeObject hspans.1 (by simp)
  rw [List.forall_mem_singleton]
  exact .array (Declaration.readable_toJsonList p.body hspans.2 (by omega))

end LetFun
