import LetFun.Proofs.Ranges
/-!
# Walks in pre-order

A part of a node stands in a slot of it, and a path of slots leads to a descendant. A walk comes by
all paths of a tree, each once, in the order in which a path precedes its extensions and otherwise
the slots decide (`exists_visits`). What the nodes of a walk show without their children determines
the tree, and even a list of trees walked one after the other (`eq_of_headers_eq`).
-/

namespace LetFun

/-- Where a node has a part: in a field of its own, or in a field that lists parts, at an index. -/
inductive Slot where
  | statement (index : Nat)
  | declarator (index : Nat)
  | id
  | init
  | param (index : Nat)
  | body
deriving DecidableEq, Repr

inductive Slot.Before : Slot → Slot → Prop where
  | statements {i j : Nat} (h : i < j) : Before (.statement i) (.statement j)
  | declarators {i j : Nat} (h : i < j) : Before (.declarator i) (.declarator j)
  | init : Before .id .init
  | param (i : Nat) : Before .id (.param i)
  | body : Before .id .body
  | params {i j : Nat} (h : i < j) : Before (.param i) (.param j)
  | paramBody (i : Nat) : Before (.param i) .body

/-- No slot comes before itself. -/
theorem Slot.Before.irrefl (s : Slot) : ¬ s.Before s := by
  intro h
  cases h <;> omega

def Header.arity : Header → Nat
  | .program _ statements => statements
  | .declaration _ _ declarators => declarators
  | .declarator _ => 2
  | .identifier _ _ => 0
  | .functionExpr _ named params => named.toNat + params + 1
  | .block _ statements => statements

namespace Node

def part? : Node → Slot → Option Node
  | .program p, .statement i => p.body[i]?.map .declaration
  | .declaration d, .declarator i => d.declarators[i]?.map .declarator
  | .declarator d, .id => some (.identifier d.id)
  | .declarator d, .init => some (.functionExpr d.init)
  | .functionExpr f, .id => f.id.map .identifier
  | .functionExpr f, .param i => f.params[i]?.map .identifier
  | .functionExpr f, .body => some (.block f.body)
  | .block b, .statement i => b.body[i]?.map .declaration
  | _, _ => none

/-- The descendant to which a path leads; the empty path leads to the node itself. -/
def get? : Node → List Slot → Option Node
  | n, [] => some n
  | n, s :: path => (n.part? s).bind fun c => c.get? path

def HasParts (n : Node) (parts : List Node) : Prop :=
  ∃ slots : List Slot, slots.Pairwise Slot.Before ∧ (∀ s, s ∈ slots ↔ (n.part? s).isSome) ∧
    slots.map n.part? = parts.map some

/-- These are the paths of a tree, in order, and a walk comes by what they lead to. -/
structure Visits (n : Node) (paths : List (List Slot)) : Prop where
  preorder : paths.Pairwise (List.Lex Slot.Before)
  all : ∀ path, path ∈ paths ↔ (n.get? path).isSome
  walk : paths.map n.get? = n.walk.map some

variable {n m c : Node} {ns ms cs : List Node} {slots : List Slot}

/-! ## Parts -/

/-- A field that lists parts has a slot for each, in their order. -/
theorem map_part?_range {α : Type} {slot : Nat → Slot} {xs : List α} {f : α → Node}
    (hpart : ∀ i, n.part? (slot i) = xs[i]?.map f) :
    ((List.range xs.length).map slot).map n.part? = (xs.map f).map some := by
  apply List.ext_getElem?
  intro i
  by_cases hi : i < xs.length
  · simp [hpart, hi]
  · simp [hi]

/-- The parts of a node that has nothing but a list of them. -/
theorem hasParts_of_list {α : Type} {slot : Nat → Slot} {xs : List α} {f : α → Node}
    (horder : ∀ {i j}, i < j → (slot i).Before (slot j))
    (hpart : ∀ i, n.part? (slot i) = xs[i]?.map f)
    (hother : ∀ s, (n.part? s).isSome → ∃ i, slot i = s) : n.HasParts (xs.map f) := by
  refine ⟨(List.range xs.length).map slot, ?_, fun s => ?_, map_part?_range hpart⟩
  · exact List.pairwise_map.2 (List.pairwise_lt_range.imp horder)
  · constructor
    · intro hs
      obtain ⟨i, hi, rfl⟩ := List.mem_map.1 hs
      simpa [hpart] using hi
    · intro hs
      obtain ⟨i, rfl⟩ := hother s hs
      exact List.mem_map_of_mem (by simpa [hpart] using hs)

theorem hasParts_functionExpr (f : FunctionExpr) :
    (Node.functionExpr f).HasParts (Node.functionExpr f).children := by
  have hparams : ((List.range f.params.length).map Slot.param).map (Node.functionExpr f).part? =
      (f.params.map Node.identifier).map some := map_part?_range fun _ => rfl
  have hsorted :
      ((List.range f.params.length).map Slot.param ++ [Slot.body]).Pairwise Slot.Before := by
    rw [List.pairwise_append, List.pairwise_map]
    refine ⟨List.pairwise_lt_range.imp .params, List.pairwise_singleton _ _, ?_⟩
    intro s hs t ht
    obtain ⟨i, _, rfl⟩ := List.mem_map.1 hs
    rw [List.mem_singleton.1 ht]
    exact .paramBody i
  refine ⟨f.id.toList.map (fun _ => .id) ++ (List.range f.params.length).map .param ++ [.body],
    ?_, fun s => ?_, ?_⟩
  · cases f.id with
    | none => exact hsorted
    | some name =>
      refine List.pairwise_cons.2 ⟨fun s hs => ?_, hsorted⟩
      rcases List.mem_append.1 hs with hs | hs
      · obtain ⟨i, _, rfl⟩ := List.mem_map.1 hs
        exact .param i
      · rw [List.mem_singleton.1 hs]
        exact .body
  · cases s <;> simp [part?, Option.isSome_iff_ne_none]
  · rw [children, List.map_append, List.map_append, hparams]
    cases hid : f.id <;> simp [part?, hid]

/-- The children of a node are its parts, whatever its type. -/
theorem hasParts_children (n : Node) : n.HasParts n.children := by
  cases n with
  | program p =>
    apply hasParts_of_list .statements fun _ => rfl
    rintro (i | _ | _ | _ | _ | _) h
    · exact ⟨i, rfl⟩
    all_goals cases h
  | declaration d =>
    apply hasParts_of_list .declarators fun _ => rfl
    rintro (_ | i | _ | _ | _ | _) h
    · cases h
    · exact ⟨i, rfl⟩
    all_goals cases h
  | declarator d =>
    refine ⟨[.id, .init], by simpa using Slot.Before.init, fun s => ?_, rfl⟩
    cases s <;> simp [part?]
  | identifier i =>
    refine ⟨[], .nil, fun s => ?_, rfl⟩
    simp [part?]
  | functionExpr f => exact hasParts_functionExpr f
  | block b =>
    apply hasParts_of_list .statements fun _ => rfl
    rintro (i | _ | _ | _ | _ | _) h
    · exact ⟨i, rfl⟩
    all_goals cases h

/-! ## Paths -/

/-- The paths into the parts of a node that stand in some of its slots. -/
theorem exists_paths_of_parts (hslots : slots.Pairwise Slot.Before)
    (hparts : slots.map n.part? = cs.map some) (hcs : ∀ c ∈ cs, ∃ paths, c.Visits paths) :
    ∃ paths : List (List Slot), paths.Pairwise (List.Lex Slot.Before) ∧
      (∀ path, path ∈ paths ↔ ∃ s ∈ slots, ∃ rest, path = s :: rest ∧ (n.get? path).isSome) ∧
      paths.map n.get? = (cs.flatMap Node.walk).map some := by
  induction slots generalizing cs with
  | nil =>
    obtain rfl := List.map_eq_nil_iff.1 hparts.symm
    exact ⟨[], .nil, by simp, rfl⟩
  | cons s slots ih =>
    obtain ⟨c, cs, rfl, hc, hparts⟩ := List.map_eq_cons_iff.1 hparts.symm
    obtain ⟨hfirst, hslots⟩ := List.pairwise_cons.1 hslots
    obtain ⟨below, hbelow⟩ := hcs c List.mem_cons_self
    obtain ⟨later, hsorted, hlater, hwalk⟩ :=
      ih hslots hparts.symm fun d hd => hcs d (List.mem_cons_of_mem c hd)
    have hget (rest : List Slot) : n.get? (s :: rest) = c.get? rest := by
      rw [get?, ← hc, Option.bind_some]
    -- The paths into the first part come before those into the others, as its slot does.
    refine ⟨below.map (s :: ·) ++ later, ?_, fun path => ?_, ?_⟩
    · rw [List.pairwise_append, List.pairwise_map]
      refine ⟨hbelow.preorder.imp .cons, hsorted, ?_⟩
      intro p hp q hq
      obtain ⟨p, _, rfl⟩ := List.mem_map.1 hp
      obtain ⟨t, ht, q, rfl, _⟩ := (hlater q).1 hq
      exact .rel (hfirst t ht)
    · rw [List.mem_append, List.mem_map, hlater]
      constructor
      · rintro (⟨rest, hrest, rfl⟩ | ⟨t, ht, rest, rfl, h⟩)
        · exact ⟨s, List.mem_cons_self, rest, rfl, hget rest ▸ (hbelow.all rest).1 hrest⟩
        · exact ⟨t, List.mem_cons_of_mem s ht, rest, rfl, h⟩
      · rintro ⟨t, ht, rest, rfl, h⟩
        rcases List.mem_cons.1 ht with rfl | ht
        · exact .inl ⟨rest, (hbelow.all rest).2 (hget rest ▸ h), rfl⟩
        · exact .inr ⟨t, ht, rest, rfl, h⟩
    · have hmap : (below.map (s :: ·)).map n.get? = c.walk.map some := by
        rw [← hbelow.walk, List.map_map]
        exact List.map_congr_left fun rest _ => hget rest
      rw [List.map_append, hmap, hwalk, List.flatMap_cons, List.map_append]

/-- Every tree has its paths, and a walk comes by all of them in order. -/
theorem exists_visits (n : Node) : ∃ paths, n.Visits paths := by
  induction n using Node.induction with
  | h n ih =>
    obtain ⟨slots, hslots, hmem, hparts⟩ := n.hasParts_children
    obtain ⟨paths, hsorted, hpaths, hwalk⟩ := exists_paths_of_parts hslots hparts ih
    refine ⟨[] :: paths, List.pairwise_cons.2 ⟨fun path hpath => ?_, hsorted⟩, fun path => ?_, ?_⟩
    · obtain ⟨s, _, rest, rfl, _⟩ := (hpaths path).1 hpath
      exact .nil
    · cases path with
      | nil => simp [get?]
      | cons s rest =>
        rw [List.mem_cons, hpaths]
        constructor
        · rintro (h | ⟨_, _, _, _, h⟩)
          · cases h
          · exact h
        · intro h
          have hs : (n.part? s).isSome := Option.isSome_of_isSome_bind h
          exact .inr ⟨s, (hmem s).2 hs, rest, rfl, h⟩
    · rw [List.map_cons, hwalk, get?, walk_eq, List.map_cons]

/-- No node is visited twice. -/
theorem Visits.nodup {paths : List (List Slot)} (h : n.Visits paths) : paths.Nodup := by
  refine h.preorder.imp fun {p q} hlt => ?_
  rintro rfl
  exact List.lex_irrefl Slot.Before.irrefl p hlt

/-! ## What follows a node -/

/-- A node among walks one after the other belongs to one of them. -/
theorem exists_of_flatMap_walk {before after : List Node}
    (h : cs.flatMap Node.walk = before ++ m :: after) :
    ∃ c ∈ cs, ∃ front back, c.walk = front ++ m :: back ∧ back <+: after := by
  induction cs generalizing before with
  | nil => simp at h
  | cons c cs ih =>
    rw [List.flatMap_cons] at h
    rcases List.append_eq_append_iff.1 h with ⟨front, _, h⟩ | ⟨back, hc, h⟩
    · obtain ⟨d, hd, hwalk⟩ := ih h
      exact ⟨d, List.mem_cons_of_mem c hd, hwalk⟩
    · cases back with
      | nil =>
        have hlater : cs.flatMap Node.walk = [] ++ m :: after := h.symm
        obtain ⟨d, hd, hwalk⟩ := ih hlater
        exact ⟨d, List.mem_cons_of_mem c hd, hwalk⟩
      | cons b back =>
        obtain ⟨rfl, rfl⟩ := List.cons.inj h
        exact ⟨c, List.mem_cons_self, before, back, hc, List.prefix_append back _⟩

/-- Wherever a walk comes by a node, the walks of its children come next. -/
theorem flatMap_walk_prefix {before after : List Node} (h : n.walk = before ++ m :: after) :
    m.children.flatMap Node.walk <+: after := by
  induction n using Node.induction generalizing before after with
  | h n ih =>
    rw [walk_eq] at h
    cases before with
    | nil =>
      obtain ⟨rfl, rfl⟩ := List.cons.inj h
      exact List.prefix_rfl
    | cons b before =>
      obtain ⟨c, hc, front, back, hwalk, hback⟩ := exists_of_flatMap_walk (List.cons.inj h).2
      exact (ih c hc hwalk).trans hback

/-! ## Headers -/

/-- The header of a node tells how many children follow. -/
theorem arity_header (n : Node) : n.header.arity = n.children.length := by
  cases n with
  | functionExpr f => cases hid : f.id <;> simp [header, Header.arity, children, hid, Nat.add_comm]
  | _ => simp [header, Header.arity, children]

/-- A header and the children determine the node. -/
theorem eq_of_header_eq (hheader : n.header = m.header) (hchildren : n.children = m.children) :
    n = m := by
  cases n <;> cases m <;> simp only [header, children, reduceCtorEq] at hheader hchildren
  case program.program p q =>
    obtain ⟨_, _⟩ := p
    obtain ⟨_, _⟩ := q
    obtain ⟨rfl, -⟩ := Header.program.inj hheader
    obtain rfl := (List.map_inj_right fun _ _ => Node.declaration.inj).1 hchildren
    rfl
  case declaration.declaration d e =>
    obtain ⟨_, _, _⟩ := d
    obtain ⟨_, _, _⟩ := e
    obtain ⟨rfl, rfl, -⟩ := Header.declaration.inj hheader
    obtain rfl := (List.map_inj_right fun _ _ => Node.declarator.inj).1 hchildren
    rfl
  case declarator.declarator d e =>
    obtain ⟨_, _, _⟩ := d
    obtain ⟨_, _, _⟩ := e
    obtain rfl := Header.declarator.inj hheader
    obtain ⟨hid, hinit⟩ := List.cons.inj hchildren
    obtain rfl := Node.identifier.inj hid
    obtain rfl := Node.functionExpr.inj (List.cons.inj hinit).1
    rfl
  case identifier.identifier i j =>
    obtain ⟨_, _⟩ := i
    obtain ⟨_, _⟩ := j
    obtain ⟨rfl, rfl⟩ := Header.identifier.inj hheader
    rfl
  case functionExpr.functionExpr f g =>
    obtain ⟨_, name, _, _⟩ := f
    obtain ⟨_, name', _, _⟩ := g
    obtain ⟨rfl, -, hlength⟩ := Header.functionExpr.inj hheader
    -- The header tells how long the lists of children are, so they can be taken apart.
    obtain ⟨hfront, hbody⟩ := List.append_inj' hchildren rfl
    obtain ⟨hid, hparams⟩ := List.append_inj' hfront (by simpa using hlength)
    obtain rfl := Node.block.inj (List.cons.inj hbody).1
    obtain rfl := (List.map_inj_right fun _ _ => Node.identifier.inj).1 hparams
    have hlists := (List.map_inj_right fun _ _ => Node.identifier.inj).1 hid
    have hname : name.toList.head? = name'.toList.head? := congrArg List.head? hlists
    rw [Option.head?_toList, Option.head?_toList] at hname
    rw [hname]
  case block.block b c =>
    obtain ⟨_, _⟩ := b
    obtain ⟨_, _⟩ := c
    obtain ⟨rfl, -⟩ := Header.block.inj hheader
    obtain rfl := (List.map_inj_right fun _ _ => Node.declaration.inj).1 hchildren
    rfl

/-- The headers along walks one after the other determine the trees. -/
theorem eq_of_headers_eq
    (h : (ns.flatMap Node.walk).map Node.header = (ms.flatMap Node.walk).map Node.header) :
    ns = ms := by
  generalize hk : (ns.flatMap Node.walk).length = k
  induction k using Nat.strongRecOn generalizing ns ms with
  | ind k ih =>
    cases ns with
    | nil =>
      cases ms with
      | nil => rfl
      | cons m ms => simp [walk_eq m] at h
    | cons n ns =>
      cases ms with
      | nil => simp [walk_eq n] at h
      | cons m ms =>
        rw [List.flatMap_cons, walk_eq n, List.cons_append, ← List.flatMap_append] at h hk
        rw [List.flatMap_cons, walk_eq m, List.cons_append, ← List.flatMap_append] at h
        obtain ⟨hheader, hrest⟩ := List.cons.inj h
        have harity : n.children.length = m.children.length := by
          rw [← arity_header, ← arity_header, hheader]
        -- The walks go on with the children, in front of the nodes that were behind.
        have hall : n.children ++ ns = m.children ++ ms := by
          refine ih _ ?_ hrest rfl
          rw [← hk]
          exact Nat.lt_succ_self _
        obtain ⟨hchildren, rfl⟩ := List.append_inj hall harity
        rw [eq_of_header_eq hheader hchildren]

/-- A walk is a complete pre-order: it comes by every part of the tree exactly once, in the order of
the paths to them, each node is followed at once by the walks of its children, which are its parts
in the order of their slots, and no other tree has the same headers along its walk. -/
theorem walk_preorder (n : Node) :
    (∃ paths, n.Visits paths ∧ paths.Nodup) ∧
      (∀ before m after, n.walk = before ++ m :: after →
        m.HasParts m.children ∧ m.children.flatMap Node.walk <+: after) ∧
      ∀ m : Node, m.walk.map Node.header = n.walk.map Node.header ↔ m = n := by
  obtain ⟨paths, hpaths⟩ := n.exists_visits
  refine ⟨⟨paths, hpaths, hpaths.nodup⟩, fun before m after h => ?_, fun m => ?_⟩
  · exact ⟨m.hasParts_children, flatMap_walk_prefix h⟩
  · constructor
    · intro h
      have hforest : [m] = [n] := eq_of_headers_eq (by simpa using h)
      exact (List.cons.inj hforest).1
    · rintro rfl
      rfl

end Node

end LetFun
