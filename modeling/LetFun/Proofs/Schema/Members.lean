import LetFun.Proofs.Schema.Conformance
/-!
# The order of members

Values that differ only in the order of the members of objects, at any depth, are checked alike
(`Json.SameMembers.check_eq`): a faulty one has the same faults, in the same order.
-/

namespace LetFun

variable {v w : Json} {ms ns : Members}

namespace Json

/-- Two values differ at most in the order of the members of objects. -/
inductive SameMembers : Json → Json → Prop where
  | refl (v : Json) : SameMembers v v
  | array {vs ws : List Json} (hlength : vs.length = ws.length)
      (h : ∀ (i : Nat) (v w : Json), vs[i]? = some v → ws[i]? = some w → SameMembers v w) :
      SameMembers (.array vs) (.array ws)
  | object {ms ns : Members}
      (hkeys : ∀ key, (ms.lookup key).isSome = (ns.lookup key).isSome)
      (h : ∀ (key : Text) (v w : Json), ms.lookup key = some v → ns.lookup key = some w →
        SameMembers v w) :
      SameMembers (.object ms) (.object ns)

/-- Where no key comes twice, looking up a key finds its member. -/
theorem lookup_eq_some_iff_mem (hkeys : (ms.map Prod.fst).Nodup) {key : Text} :
    ms.lookup key = some v ↔ (key, v) ∈ ms := by
  induction ms with
  | nil => simp
  | cons m ms ih =>
    obtain ⟨k, u⟩ := m
    rw [List.map_cons, List.nodup_cons] at hkeys
    rw [List.lookup_cons, List.mem_cons]
    by_cases hk : key = k
    · subst hk
      have hnot : ∀ u, (key, u) ∉ ms := fun u hmem =>
        hkeys.1 (List.mem_map.2 ⟨(key, u), hmem, rfl⟩)
      simp [hnot, eq_comm]
    · have hbeq : (key == k) = false := by simpa using hk
      simp [hbeq, hk, ih hkeys.2]

/-- Objects with the same members in another order. -/
theorem SameMembers.of_perm (hkeys : (ms.map Prod.fst).Nodup) (h : ms.Perm ns) :
    SameMembers (.object ms) (.object ns) := by
  have hlookup : ∀ key, ms.lookup key = ns.lookup key := by
    intro key
    apply Option.ext
    intro v
    rw [lookup_eq_some_iff_mem hkeys, lookup_eq_some_iff_mem ((h.map Prod.fst).nodup_iff.1 hkeys),
      h.mem_iff]
  refine .object (fun key => by rw [hlookup]) fun key v w hv hw => ?_
  rw [hlookup, hw] at hv
  cases hv
  exact .refl v

/-- The order of members makes no difference to a check. -/
theorem SameMembers.check_eq (h : SameMembers v w) (s : Shape) :
    s.check (some v) = s.check (some w) := by
  induction h generalizing s with
  | refl => rfl
  | @array vs ws hlength _ ih =>
    cases s with
    | list type =>
      exact checkItems_congr (map_eq_map hlength fun i v w hv hw => ih i v w hv hw (.node type)) 0
    | node type =>
      have hne (us : List Json) (ms : Members) : Json.array us ≠ .object ms := nofun
      show type.ofJson _ = type.ofJson _
      rw [NodeType.ofJson_of_ne (hne vs), NodeType.ofJson_of_ne (hne ws)]
    | _ => rfl
  | @object ms ns hkeys _ ih =>
    -- The check of a node looks at its members by key, so their order does not matter to it.
    have hnode (type : NodeType) : type.ofJson (.object ms) = type.ofJson (.object ns) := by
      apply NodeType.ofJson_congr
      intro a _
      have hkey := hkeys (Text.ofString a.1)
      show a.2.check (ms.lookup _) = a.2.check (ns.lookup _)
      cases hm : ms.lookup (Text.ofString a.1) with
      | none =>
        rw [hm, Option.isSome_none] at hkey
        have hn : ns.lookup (Text.ofString a.1) = none := by simpa using hkey.symm
        rw [hn]
      | some v =>
        rw [hm, Option.isSome_some] at hkey
        obtain ⟨w, hn⟩ := Option.isSome_iff_exists.1 hkey.symm
        rw [hn]
        exact ih _ v w hm hn a.2
    cases s with
    | node type => exact hnode type
    | functionName => exact congrArg (Except.map some) (hnode .identifier)
    | _ => rfl

end Json

end LetFun
