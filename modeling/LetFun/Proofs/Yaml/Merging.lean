import LetFun.Proofs.Yaml.Faults
import LetFun.Yaml.Construction
import Mathlib.Data.List.Basic
/-!
# Merged mappings

While the nodes of a document get their values, mappings take in the entries of others and keys `=`
become texts. All that is left of the first nodes after any number of such steps is `Later`: the
entries that merge, and those that stand for a mapping, only get fewer. Merging goes on as long as
mappings merge others that have not done so, and each of them does so once (`yields_flatten`).
-/

namespace LetFun.Yaml

def Leads (R : Nat → Nat → Prop) : (n i : Nat) → Prop
  | 0, _ => True
  | n + 1, i => ∃ j, R i j ∧ Leads R n j

theorem Leads.mono {R R' : Nat → Nat → Prop} {n i : Nat} (h : Leads R n i)
    (hR : ∀ i j, R i j → R' i j) : Leads R' n i := by
  induction n generalizing i with
  | zero => trivial
  | succ n ih =>
    obtain ⟨j, hj, hrest⟩ := h
    exact ⟨j, hR i j hj, ih hrest⟩

namespace Construction

variable {s s' s'' : Construction} {i j v : Nat} {e : Nat × Nat} {es marks : Entries} {tag : Tag}

/-! ## Nodes -/

def isMarked (s : Construction) (e : Nat × Nat) : Bool :=
  s.isMerge e || s.tag? e.1 = some .value

def Unmarked (s : Construction) (es : Entries) : Prop :=
  ∀ e ∈ es, s.isMarked e = false

/-- Whether all values belong to nodes, and to different ones. -/
structure IsFair (s : Construction) : Prop where
  inside : ∀ p ∈ s.values, p.1 < s.nodes.size
  nodup : (s.values.map (·.1)).Nodup

/-- How many collections can still be filled: those that wait and those that have no value. -/
def pending (s : Construction) : Nat :=
  s.queue.length + (s.nodes.size - s.values.length)

/-- What can have become of the nodes of a document when some of them have values. -/
structure Later (s s' : Construction) : Prop where
  tag : ∀ i, s'.tag? i = s.tag? i ∨ s.tag? i = some .value ∧ s'.tag? i = some .str
  content : ∀ i, s'.content? i = s.content? i ∨ s.isMapping i = true ∧ s'.isMapping i = true
  marked : ∀ i, ((s'.entries i).filter s'.isMarked).Sublist ((s.entries i).filter s.isMarked)
  fair : s.IsFair → s'.IsFair ∧ s'.pending ≤ s.pending

theorem isMapping_iff : s.isMapping i = true ↔ ∃ es, s.content? i = some (.mapping es) := by
  unfold isMapping
  split
  · next h => simp [h]
  · next h => simpa using h

theorem entries_of_mapping (h : s.content? i = some (.mapping es)) : s.entries i = es := by
  rw [entries, h]

/-- An entry is marked by the tag of its key. -/
theorem isMarked_iff :
    s.isMarked e = true ↔ s.tag? e.1 = some .merge ∨ s.tag? e.1 = some .value := by
  simp [isMarked, isMerge]

namespace Later

/-- A state with the same nodes is later if its values are. -/
theorem of_nodes_eq (h : s'.nodes = s.nodes)
    (hfair : s.IsFair → s'.IsFair ∧ s'.pending ≤ s.pending) : Later s s' := by
  have htag : s'.tag? = s.tag? := by
    funext i
    rw [tag?, tag?, h]
  have hcontent : s'.content? = s.content? := by
    funext i
    rw [content?, content?, h]
  have hmarked : s'.isMarked = s.isMarked := by
    funext e
    rw [isMarked, isMarked, isMerge, isMerge, htag]
  refine ⟨fun i => .inl (congrFun htag i), fun i => .inl (congrFun hcontent i), fun i => ?_, hfair⟩
  rw [hmarked, entries, entries, hcontent]

theorem refl (s : Construction) : Later s s :=
  of_nodes_eq rfl fun h => ⟨h, Nat.le_refl _⟩

theorem isMapping (h : Later s s') : s'.isMapping i = s.isMapping i := by
  rcases h.content i with hsame | ⟨hbefore, hafter⟩
  · rw [Construction.isMapping, Construction.isMapping, hsame]
  · rw [hbefore, hafter]

/-- What is later than a later state is later. -/
theorem trans (h : Later s s') (h' : Later s' s'') : Later s s'' := by
  refine ⟨fun i => ?_, fun i => ?_, fun i => (h'.marked i).trans (h.marked i), fun hfair => ?_⟩
  · rcases h'.tag i with hsame | ⟨hvalue, hstr⟩
    · rw [hsame]
      exact h.tag i
    · rcases h.tag i with hsame | ⟨-, hstr'⟩
      · exact .inr ⟨hsame ▸ hvalue, hstr⟩
      · rw [hstr'] at hvalue
        cases hvalue
  · rcases h'.content i with hsame | ⟨hbefore, hafter⟩
    · rcases h.content i with hsame' | ⟨hbefore, hafter⟩
      · exact .inl (hsame.trans hsame')
      · exact .inr ⟨hbefore, h'.isMapping.trans hafter⟩
    · exact .inr ⟨h.isMapping ▸ hbefore, hafter⟩
  · obtain ⟨hfair', hle⟩ := h.fair hfair
    obtain ⟨hfair'', hle'⟩ := h'.fair hfair'
    exact ⟨hfair'', Nat.le_trans hle' hle⟩

/-- No tag becomes one that marks entries. -/
theorem tag_eq (h : Later s s') (ht : s'.tag? i = some tag) (hne : tag ≠ .str) :
    s.tag? i = some tag := by
  rcases h.tag i with hsame | ⟨-, hstr⟩
  · rw [← hsame, ht]
  · rw [hstr] at ht
    exact absurd (Option.some.inj ht).symm hne

theorem isMerge_eq (h : Later s s') (e : Nat × Nat) : s'.isMerge e = s.isMerge e := by
  rw [Bool.eq_iff_iff, isMerge, isMerge, decide_eq_true_eq, decide_eq_true_eq]
  constructor
  · exact fun ht => h.tag_eq ht (by decide)
  · intro ht
    rcases h.tag e.1 with hsame | ⟨hvalue, -⟩
    · rw [hsame, ht]
    · rw [hvalue] at ht
      cases ht

/-- Marks disappear and never appear. -/
theorem isMarked_of (h : Later s s') (he : s'.isMarked e = true) : s.isMarked e = true := by
  rw [isMarked_iff] at he ⊢
  exact he.imp (fun ht => h.tag_eq ht (by decide)) fun ht => h.tag_eq ht (by decide)

theorem unmarked (h : Later s s') (hes : Unmarked s es) : Unmarked s' es := by
  intro e he
  rw [← Bool.not_eq_true]
  intro hmarked
  have hbefore := h.isMarked_of hmarked
  rw [hes e he] at hbefore
  cases hbefore

/-- A marked entry has been there all the time. -/
theorem mem_entries (h : Later s s') (he : e ∈ s'.entries i) (hmarked : s'.isMarked e = true) :
    e ∈ s.entries i :=
  (List.mem_filter.1 ((h.marked i).subset (List.mem_filter.2 ⟨he, hmarked⟩))).1

theorem filter_isMerge (s : Construction) (i : Nat) :
    ((s.entries i).filter s.isMarked).filter s.isMerge = (s.entries i).filter s.isMerge := by
  rw [List.filter_filter]
  congr 1
  funext e
  cases h : s.isMerge e <;> simp [isMarked, h]

/-- The entries that merge become fewer. -/
theorem merges (h : Later s s') (i : Nat) :
    ((s'.entries i).filter s'.isMerge).Sublist ((s.entries i).filter s.isMerge) := by
  rw [← filter_isMerge, ← filter_isMerge s, funext h.isMerge_eq]
  exact (h.marked i).filter s.isMerge

end Later

/-! ## Changes of nodes -/

theorem tag?_setEntries (s : Construction) (i : Nat) (es : Entries) (j : Nat) :
    (s.setEntries i es).tag? j = s.tag? j := by
  rw [tag?, tag?, setEntries, Array.getElem?_modify]
  split <;> cases s.nodes[j]? <;> rfl

theorem content?_setEntries_of_ne (h : i ≠ j) (es : Entries) :
    (s.setEntries i es).content? j = s.content? j := by
  rw [content?, content?, setEntries, Array.getElem?_modify, if_neg h]

theorem content?_setEntries (h : s.isMapping i = true) (es : Entries) :
    (s.setEntries i es).content? i = some (.mapping es) := by
  obtain ⟨es', hcontent⟩ := isMapping_iff.1 h
  obtain ⟨n, hn, -⟩ := Option.map_eq_some_iff.1 hcontent
  rw [content?, setEntries, Array.getElem?_modify, if_pos rfl, hn]
  rfl

theorem entries_setEntries (h : s.isMapping i = true) (es : Entries) :
    (s.setEntries i es).entries i = es :=
  entries_of_mapping (content?_setEntries h es)

theorem isMarked_setEntries (s : Construction) (i : Nat) (es : Entries) :
    (s.setEntries i es).isMarked = s.isMarked := by
  funext e
  rw [isMarked, isMarked, isMerge, isMerge, tag?_setEntries]

theorem fair_of_size_eq (hsize : s'.nodes.size = s.nodes.size) (hvalues : s'.values = s.values)
    (hqueue : s'.queue = s.queue) (h : s.IsFair) : s'.IsFair ∧ s'.pending ≤ s.pending := by
  refine ⟨⟨?_, hvalues ▸ h.nodup⟩, ?_⟩
  · rw [hvalues, hsize]
    exact h.inside
  · exact Nat.le_of_eq (by rw [pending, pending, hsize, hvalues, hqueue])

/-- A mapping may lose marked entries, and it may get others. -/
theorem later_setEntries (hi : s.isMapping i = true)
    (hes : (es.filter s.isMarked).Sublist ((s.entries i).filter s.isMarked)) :
    Later s (s.setEntries i es) := by
  refine ⟨fun j => .inl (tag?_setEntries s i es j), fun j => ?_, fun j => ?_,
    fair_of_size_eq (Array.size_modify ..) rfl rfl⟩
  · by_cases hij : i = j
    · subst hij
      exact .inr ⟨hi, isMapping_iff.2 ⟨es, content?_setEntries hi es⟩⟩
    · exact .inl (content?_setEntries_of_ne hij es)
  · rw [isMarked_setEntries]
    by_cases hij : i = j
    · subst hij
      rw [entries_setEntries hi]
      exact hes
    · rw [entries, content?_setEntries_of_ne hij]
      exact List.Sublist.refl _

theorem content?_nameKeys (s : Construction) (i j : Nat) :
    (s.nameKeys i).content? j = s.content? j := by
  rw [content?, content?, nameKeys, Array.getElem?_mapIdx]
  cases s.nodes[j]? with
  | none => rfl
  | some n =>
    rw [Option.map_some, Option.map_some]
    split <;> rfl

theorem tag?_nameKeys (s : Construction) (i j : Nat) : (s.nameKeys i).tag? j =
    if s.tag? j = some .value ∧ j ∈ (s.entries i).map (·.1) then some .str else s.tag? j := by
  rw [tag?, tag?, nameKeys, Array.getElem?_mapIdx]
  cases s.nodes[j]? with
  | none => simp
  | some n =>
    simp only [Option.map_some, Option.some.injEq]
    split <;> rfl

theorem entries_nameKeys (s : Construction) (i j : Nat) :
    (s.nameKeys i).entries j = s.entries j := by
  rw [entries, entries, content?_nameKeys]

/-- A key that is made a text is no longer marked. -/
theorem later_nameKeys (s : Construction) (i : Nat) : Later s (s.nameKeys i) := by
  have htag : ∀ j, (s.nameKeys i).tag? j = s.tag? j ∨
      s.tag? j = some .value ∧ (s.nameKeys i).tag? j = some .str := by
    intro j
    rw [tag?_nameKeys]
    split
    · next h => exact .inr ⟨h.1, rfl⟩
    · exact .inl rfl
  refine ⟨htag, fun j => .inl (content?_nameKeys s i j), fun j => ?_,
    fair_of_size_eq Array.size_mapIdx rfl rfl⟩
  rw [entries_nameKeys]
  apply List.monotone_filter_right
  intro e he
  rw [isMarked_iff] at he ⊢
  rcases htag e.1 with hsame | ⟨hvalue, -⟩
  · rwa [hsame] at he
  · exact .inr hvalue

/-- A mapping without entries that merge has no marked ones once its keys are texts. -/
theorem unmarked_nameKeys (h : (s.entries i).filter s.isMerge = []) :
    (s.nameKeys i).Unmarked ((s.nameKeys i).entries i) := by
  intro e he
  rw [entries_nameKeys] at he
  rw [← Bool.not_eq_true, isMarked_iff, tag?_nameKeys]
  split
  · simp
  · next hkept =>
    rintro (hmerge | hvalue)
    · exact List.filter_eq_nil_iff.1 h e he (decide_eq_true hmerge)
    · exact hkept ⟨hvalue, List.mem_map_of_mem he⟩

/-! ## Merging -/

/-- A node gives another one to what it is merged into: itself, or an item of it. -/
def Offers (s : Construction) (v j : Nat) : Prop :=
  s.isMapping j = true ∧ (v = j ∨ ∃ items, s.content? v = some (.sequence items) ∧ j ∈ items)

def Merges (s : Construction) (i j : Nat) : Prop :=
  ∃ e ∈ s.entries i, s.isMerge e = true ∧ s.Offers e.2 j

theorem Later.offers (h : Later s s') (hv : s'.Offers v j) : s.Offers v j := by
  obtain ⟨hj, hoffers⟩ := hv
  refine ⟨h.isMapping ▸ hj, hoffers.imp_right fun ⟨items, hitems, hmem⟩ => ⟨items, ?_, hmem⟩⟩
  rcases h.content v with hsame | ⟨-, hafter⟩
  · rw [← hsame, hitems]
  · obtain ⟨es, hes⟩ := isMapping_iff.1 hafter
    rw [hes] at hitems
    cases hitems

theorem Later.merges_of (h : Later s s') (hj : s'.Merges i j) : s.Merges i j := by
  obtain ⟨e, he, hmerge, hoffers⟩ := hj
  have hmarked : s'.isMarked e = true := by rw [isMarked, hmerge, Bool.true_or]
  exact ⟨e, h.mem_entries he hmarked, h.isMerge_eq e ▸ hmerge, h.offers hoffers⟩

/-- What merges far later, merges as far before. -/
theorem Later.leads_merges {n : Nat} (h : Later s s') (hi : Leads s'.Merges n i) :
    Leads s.Merges n i :=
  hi.mono fun _ _ => h.merges_of

section

variable {fl : Construction → Nat → Except Fault Construction} {room : Nat}
  (hfl : ∀ s j, s.isMapping j = true →
    Yields (fun f => f = .tooDeep ∧ Leads s.Merges room j)
      (fun s' => Later s s' ∧ s'.Unmarked (s'.entries j)) (fl s j))
include hfl

/-- The mappings of a sequence give unmarked entries, unless one of them merges too far. -/
theorem yields_mergeItems (s : Construction) (items : List Nat) :
    Yields (fun f => f = .tooDeep ∧ ∃ j ∈ items, s.isMapping j = true ∧ Leads s.Merges room j)
      (fun r => Later s r.2 ∧ ∀ es ∈ r.1, r.2.Unmarked es) (mergeItems fl items s) := by
  induction items generalizing s with
  | nil => exact .ok ⟨.refl s, fun es hes => (nomatch hes)⟩
  | cons item items ih =>
    refine .ite (fun hitem => ?_) fun _ => .malformed
    refine .bind ((hfl s item hitem).mono ?_ fun _ h => h) fun s₁ _ h₁ => ?_
    · exact fun f hf => ⟨hf.1, item, List.mem_cons_self, hitem, hf.2⟩
    refine .bind ((ih s₁).mono ?_ fun _ h => h) fun r _ hr => ?_
    · rintro f ⟨hf, j, hj, hmapping, hleads⟩
      exact ⟨hf, j, List.mem_cons_of_mem item hj, h₁.1.isMapping ▸ hmapping,
        h₁.1.leads_merges hleads⟩
    · refine .ok ⟨h₁.1.trans hr.1, List.forall_mem_cons.2 ⟨?_, hr.2⟩⟩
      exact hr.1.unmarked h₁.2

/-- What is offered to a mapping are unmarked entries, unless something in it merges too far. -/
theorem yields_mergeNode (s : Construction) (v : Nat) :
    Yields (fun f => f = .tooDeep ∧ ∃ j, s.Offers v j ∧ Leads s.Merges room j)
      (fun r => Later s r.2 ∧ r.2.Unmarked r.1) (mergeNode fl s v) := by
  unfold mergeNode
  split
  · next es hes =>
    have hv := isMapping_iff.2 ⟨es, hes⟩
    refine .bind ((hfl s v hv).mono ?_ fun _ h => h) fun s₁ _ h₁ => .ok h₁
    exact fun f hf => ⟨hf.1, v, ⟨hv, .inl rfl⟩, hf.2⟩
  · next items hitems =>
    refine .bind ((yields_mergeItems hfl s items).mono ?_ fun _ h => h) fun r _ hr => ?_
    · rintro f ⟨hf, j, hj, hmapping, hleads⟩
      exact ⟨hf, j, ⟨hmapping, .inr ⟨items, hitems, hj⟩⟩, hleads⟩
    · refine .ok ⟨hr.1, fun e he => ?_⟩
      obtain ⟨es, hes, hmem⟩ := List.mem_flatten.1 he
      exact hr.2 es (List.mem_reverse.1 hes) e hmem
  · exact .malformed

-- The entries that merge are taken away one by one, and what is merged brings no others.
theorem yields_mergeEntries (s : Construction) (hi : s.isMapping i = true) (marks : Entries)
    (hmarks : ((s.entries i).filter s.isMerge).Sublist marks) :
    Yields (fun f => f = .tooDeep ∧ ∃ e ∈ marks, ∃ j, s.Offers e.2 j ∧ Leads s.Merges room j)
      (fun r => Later s r.2 ∧ r.2.Unmarked r.1 ∧ (r.2.entries i).filter r.2.isMerge = [])
      (mergeEntries fl i marks s) := by
  induction marks generalizing s with
  | nil => exact .ok ⟨.refl s, fun e he => (nomatch he), List.sublist_nil.1 hmarks⟩
  | cons e marks ih =>
    have herase := hmarks.erase e
    rw [List.erase_cons_head] at herase
    refine .ite (fun _ => ?_) fun hmem => ?_
    · have hlater : Later s (s.setEntries i ((s.entries i).erase e)) :=
        later_setEntries hi (List.erase_sublist.filter _)
      refine .bind ((yields_mergeNode hfl _ e.2).mono ?_ fun _ h => h) fun r₁ _ h₁ => ?_
      · rintro f ⟨hf, j, hj, hleads⟩
        exact ⟨hf, e, List.mem_cons_self, j, hlater.offers hj, hlater.leads_merges hleads⟩
      have hall := hlater.trans h₁.1
      have hrest : ((r₁.2.entries i).filter r₁.2.isMerge).Sublist marks := by
        refine (h₁.1.merges i).trans ?_
        rwa [entries_setEntries hi, funext hlater.isMerge_eq, ← List.erase_filter]
      refine .bind ((ih r₁.2 (hall.isMapping ▸ hi) hrest).mono ?_ fun _ h => h) fun r _ hr => ?_
      · rintro f ⟨hf, e', he', j, hj, hleads⟩
        exact ⟨hf, e', List.mem_cons_of_mem e he', j, hall.offers hj, hall.leads_merges hleads⟩
      · refine .ok ⟨hall.trans hr.1, ?_, hr.2.2⟩
        exact List.forall_mem_append.2 ⟨hr.1.unmarked h₁.2, hr.2.1⟩
    · rw [List.erase_of_not_mem fun h => hmem (List.mem_filter.1 h).1] at herase
      refine (ih s hi herase).mono ?_ fun _ h => h
      rintro f ⟨hf, e', he', hj⟩
      exact ⟨hf, e', List.mem_cons_of_mem e he', hj⟩

end

/-- Merging leaves no entries in a mapping that merge, and it goes too deep only where mappings
merge one another to that depth. -/
theorem yields_flatten (room : Nat) (s : Construction) (hi : s.isMapping i = true) :
    Yields (fun f => f = .tooDeep ∧ Leads s.Merges room i)
      (fun s' => Later s s' ∧ s'.Unmarked (s'.entries i)) (flatten room s i) := by
  induction room generalizing s i with
  | zero => exact .error ⟨rfl, trivial⟩
  | succ room ih =>
    have hmerge := yields_mergeEntries (fun s _ => ih s) s hi _ (List.Sublist.refl _)
    refine .bind (hmerge.mono ?_ fun _ h => h) fun r _ hr => .ok ?_
    · rintro f ⟨hf, e, he, j, hj, hleads⟩
      rw [List.mem_filter] at he
      exact ⟨hf, j, ⟨e, he.1, he.2, hj⟩, hleads⟩
    obtain ⟨hlater, hmerged, hnone⟩ := hr
    have hnamed := later_nameKeys r.2 i
    have hi' : (r.2.nameKeys i).isMapping i = true := by rw [hnamed.isMapping, hlater.isMapping, hi]
    have hunmarked : (r.2.nameKeys i).Unmarked (r.1 ++ (r.2.nameKeys i).entries i) :=
      List.forall_mem_append.2 ⟨hnamed.unmarked hmerged, unmarked_nameKeys hnone⟩
    have hset : Later (r.2.nameKeys i)
        ((r.2.nameKeys i).setEntries i (r.1 ++ (r.2.nameKeys i).entries i)) := by
      apply later_setEntries hi'
      rw [List.filter_eq_nil_iff.2 fun e he => Bool.eq_false_iff.1 (hunmarked e he)]
      exact List.nil_sublist _
    refine ⟨(hlater.trans hnamed).trans hset, ?_⟩
    rw [entries_setEntries hi']
    exact hset.unmarked hunmarked

end Construction

end LetFun.Yaml
