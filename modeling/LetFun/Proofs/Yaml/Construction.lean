import LetFun.Proofs.Yaml.Merging
import LetFun.Proofs.Yaml.Nodes
import LetFun.Proofs.Yaml.Values
/-!
# Faults of documents

The value of a document is missing if the text of a scalar does not fit its tag, or if nodes lead to
one another too far (`faultsIn_contents`). With the faults of characters and tokens these are all
that a text can have, unless it is malformed (`comesFrom_of_load`). Every collection that waits for
its parts is filled in the end (`queue_eq_nil_of_fillAll`).
-/

namespace LetFun.Yaml

namespace Construction

variable {s s' : Construction} {i j : Nat} {tag : Tag} {text : Text} {f : Fault}

/-! ## Text of nodes -/

def StandsFor (s : Construction) (i j : Nat) : Prop :=
  ∃ e ∈ s.entries i, s.tag? e.1 = some .value ∧ e.2 = j

/-- A node has a text, as a scalar or through others that stand for it. -/
inductive Spells (s : Construction) : Nat → Text → Prop where
  | scalar {i : Nat} {text : Text} (h : s.content? i = some (.scalar text)) : Spells s i text
  | mapping {i j : Nat} {text : Text} (h : s.StandsFor i j) (hj : Spells s j text) : Spells s i text

theorem Later.standsFor (h : Later s s') (hj : s'.StandsFor i j) : s.StandsFor i j := by
  obtain ⟨e, he, hvalue, rfl⟩ := hj
  exact ⟨e, h.mem_entries he (isMarked_iff.2 (.inr hvalue)), h.tag_eq hvalue (by decide), rfl⟩

/-- A text that a node has later, it has had before. -/
theorem Later.spells (h : Later s s') (htext : s'.Spells i text) : s.Spells i text := by
  induction htext with
  | @scalar i text hcontent =>
    rcases h.content i with hsame | ⟨-, hafter⟩
    · exact .scalar (hsame ▸ hcontent)
    · obtain ⟨es, hes⟩ := isMapping_iff.1 hafter
      rw [hes] at hcontent
      cases hcontent
  | mapping hj _ ih => exact .mapping (h.standsFor hj) ih

/-- The text of a node is found, unless mappings stand for one another too far. -/
theorem yields_textOf (s : Construction) (room i : Nat) :
    Yields (fun f => f = .tooDeep ∧ Leads s.StandsFor room i) (s.Spells i) (s.textOf room i) := by
  induction room generalizing i with
  | zero => exact .error ⟨rfl, trivial⟩
  | succ room ih =>
    unfold textOf
    split
    · next h => exact .ok (.scalar h)
    · next es hes =>
      split
      · next e he =>
        have hstands : s.StandsFor i e.2 := by
          rw [StandsFor, entries_of_mapping hes]
          exact ⟨e, List.mem_of_find?_eq_some he, by simpa using List.find?_some he, rfl⟩
        exact (ih e.2).mono (fun f hf => ⟨hf.1, e.2, hstands, hf.2⟩) fun _ => .mapping hstands
      · exact .malformed
    · exact .malformed

/-! ## Collections that wait -/

theorem lt_size_of_tag? (h : s.tag? i = some tag) : i < s.nodes.size := by
  obtain ⟨n, hn, -⟩ := Option.map_eq_some_iff.1 h
  exact (Array.getElem?_eq_some_iff.1 hn).1

theorem IsFair.length_le (h : s.IsFair) : s.values.length ≤ s.nodes.size := by
  have hsubset : s.values.map (·.1) ⊆ List.range s.nodes.size := by
    intro i hi
    obtain ⟨p, hp, rfl⟩ := List.mem_map.1 hi
    exact List.mem_range.2 (h.inside p hp)
  have hle := h.nodup.length_le_of_subset hsubset
  rwa [List.length_map, List.length_range] at hle

/-- A new value for a node of the document keeps the values fair. -/
theorem IsFair.put (h : s.IsFair) (hi : i < s.nodes.size) (hnew : s.values.lookup i = none)
    (v : Value) : (s.put i v).IsFair := by
  refine ⟨List.forall_mem_cons.2 ⟨hi, h.inside⟩, List.nodup_cons.2 ⟨fun hmem => ?_, h.nodup⟩⟩
  obtain ⟨p, hp, rfl⟩ := List.mem_map.1 hmem
  simpa using List.lookup_eq_none_iff.1 hnew p hp

-- A collection that gets a value waits, and there is one less that has none.
theorem later_put_wait (hi : i < s.nodes.size) (hnew : s.values.lookup i = none) (v : Value) :
    Later s { s.put i v with queue := s.queue ++ [i] } := by
  refine .of_nodes_eq rfl fun h => ?_
  have hfair := h.put hi hnew v
  have hlength := hfair.length_le
  refine ⟨⟨hfair.inside, hfair.nodup⟩, ?_⟩
  simp only [pending, Construction.put, List.length_append, List.length_cons,
    List.length_nil] at hlength ⊢
  omega

/-- A value for a node leaves one collection less to be filled. -/
theorem later_put (hi : i < s.nodes.size) (hnew : s.values.lookup i = none) (v : Value) :
    Later s (s.put i v) := by
  refine .of_nodes_eq rfl fun h => ⟨h.put hi hnew v, ?_⟩
  simp only [pending, Construction.put, List.length_cons]
  omega

-- What waits does not matter to the nodes.
theorem later_queue {queue : List Nat} (h : queue.length ≤ s.queue.length) :
    Later s { s with queue := queue } := by
  refine .of_nodes_eq rfl fun hfair => ⟨⟨hfair.inside, hfair.nodup⟩, ?_⟩
  exact Nat.add_le_add_right h _

theorem isFair_start (d : Document) : (start d).IsFair :=
  ⟨fun _ h => (nomatch h), List.nodup_nil⟩

/-! ## Values -/

/-- A fault of nodes: mappings that merge or stand for one another too far, a text that does not fit
the tag of its node, or a mapping that is to be a point in time. -/
inductive HasFault [CallStack] (s : Construction) : Fault → Prop where
  | merges {i : Nat} (h : Leads s.Merges CallStack.followed i) : HasFault s .tooDeep
  | standsFor {i : Nat} (h : Leads s.StandsFor CallStack.followed i) : HasFault s .tooDeep
  | scalar {i : Nat} {tag : Tag} {text : Text} {f : Fault} (htag : s.tag? i = some tag)
    (htext : s.Spells i text) (h : scalarOf i tag text = .error f) (hfault : f.OfScalar tag) :
    HasFault s f
  | timestamp {i : Nat} (htag : s.tag? i = some .timestamp) (hmapping : s.isMapping i = true) :
    HasFault s .timestampOfMapping

variable [CallStack]

/-- The faults of the nodes do not become more. -/
theorem Later.hasFault (h : Later s s') (hf : s'.HasFault f) : s.HasFault f := by
  cases hf with
  | merges hleads => exact .merges (h.leads_merges hleads)
  | standsFor hleads => exact .standsFor (hleads.mono fun _ _ => h.standsFor)
  | @scalar i tag text f htag htext herror hfault =>
    have hne : tag ≠ .str := by
      rintro rfl
      cases hfault
    exact .scalar (h.tag_eq htag hne) (h.spells htext) herror hfault
  | timestamp htag hmapping =>
    exact .timestamp (h.tag_eq htag (by decide)) (h.isMapping ▸ hmapping)

def Proceeds {α : Type} (s : Construction) (state : α → Construction) (x : Except Fault α) : Prop :=
  Yields s.HasFault (fun r => Later s (state r)) x

/-- What leads on from a later state leads on from the state before. -/
theorem Proceeds.after {α : Type} {state : α → Construction} {x : Except Fault α}
    (hx : s'.Proceeds state x) (h : Later s s') : s.Proceeds state x :=
  Yields.mono hx (fun _ => h.hasFault) fun _ => h.trans

/-- Two steps in a row lead on, or one of them finds a fault. -/
theorem Proceeds.bind {α β : Type} {state : α → Construction} {state' : β → Construction}
    {x : Except Fault α} {g : α → Except Fault β} (hx : s.Proceeds state x)
    (hg : ∀ r, (state r).Proceeds state' (g r)) : s.Proceeds state' (x >>= g) :=
  Yields.bind hx fun r _ hr => (hg r).after hr

theorem Proceeds.done {α : Type} {state : α → Construction} {r : α} (hr : state r = s) :
    s.Proceeds state (.ok r) :=
  Yields.ok (hr.symm ▸ .refl s)

/-- The value of a node is new, or it has been there before. -/
theorem proceeds_valueOf (s : Construction) (i : Nat) : s.Proceeds (·.2) (s.valueOf i) := by
  have hscalar : ∀ tag, s.tag? i = some tag → s.values.lookup i = none → s.Proceeds (·.2) (do
      let text ← s.textOf CallStack.followed i
      if tag = .timestamp ∧ s.isMapping i then .error .timestampOfMapping
      else
        let v ← scalarOf i tag text
        return (Value.scalar v, s.put i (.scalar v))) := by
    intro tag htag hnew
    have htext : Yields s.HasFault (s.Spells i) (s.textOf CallStack.followed i) := by
      refine (yields_textOf s CallStack.followed i).mono ?_ fun _ h => h
      rintro _ ⟨rfl, h⟩
      exact .standsFor h
    refine Yields.bind htext fun text _ hspells => .ite (fun h => ?_) fun _ => ?_
    · obtain ⟨rfl, hmapping⟩ := h
      exact .error (.timestamp htag hmapping)
    · have hvalue := faultsIn_scalarOf i tag text
      refine Yields.bind ⟨fun f hf hne => ?_, fun _ _ => trivial⟩ fun v _ _ => ?_
      · exact .scalar htag hspells hf (hvalue.fault f hf hne)
      · exact .ok (later_put (lt_size_of_tag? htag) hnew _)
  unfold valueOf
  split
  · exact .done rfl
  · next hnew =>
    cases htag : s.tag? i with
    | none => exact Yields.malformed
    | some tag =>
      have hi := lt_size_of_tag? htag
      cases tag with
      | seq | omap | pairs | set | map => exact Yields.ok (later_put_wait hi hnew _)
      | merge | value | other _ => exact Yields.malformed
      | null | bool | int | float | binary | timestamp | str => exact hscalar _ htag hnew

theorem proceeds_valuesOf (s : Construction) (parts : List Nat) :
    s.Proceeds id (valuesOf parts s) := by
  induction parts generalizing s with
  | nil => exact .done rfl
  | cons i parts ih => exact .bind (proceeds_valueOf s i) fun r => ih r.2

theorem proceeds_entriesOf (s : Construction) (es : Entries) :
    s.Proceeds (·.2) (entriesOf es s) := by
  induction es generalizing s with
  | nil => exact .done rfl
  | cons e es ih =>
    refine .bind (proceeds_valueOf s e.1) fun key => ?_
    dsimp only
    split
    · exact Yields.malformed
    · refine .bind (proceeds_valueOf key.2 e.2) fun value => ?_
      exact .bind (ih value.2) fun _ => .done rfl

theorem proceeds_pairsOf (s : Construction) (items : List Nat) :
    s.Proceeds id (pairsOf items s) := by
  induction items generalizing s with
  | nil => exact .done rfl
  | cons item items ih =>
    unfold pairsOf
    split
    · exact .bind (proceeds_valuesOf s _) ih
    · exact Yields.malformed

/-- A mapping takes in what it merges, unless that leads too far. -/
theorem proceeds_flatten (h : s.isMapping i = true) :
    s.Proceeds id (flatten CallStack.followed s i) := by
  refine (yields_flatten CallStack.followed s h).mono ?_ fun _ h => h.1
  rintro _ ⟨rfl, hleads⟩
  exact .merges hleads

/-- The parts of a collection get their values. -/
theorem proceeds_fill (s : Construction) (i : Nat) : s.Proceeds (·.2) (s.fill i) := by
  unfold fill
  split
  case h_1 hes | h_2 hes =>
    exact .bind (proceeds_flatten (isMapping_iff.2 ⟨_, hes⟩)) fun s => proceeds_entriesOf s _
  · exact .bind (proceeds_valuesOf s _) fun _ => .done rfl
  · exact .bind (proceeds_pairsOf s _) fun _ => .done rfl
  · exact .bind (proceeds_pairsOf s _) fun _ => .done rfl
  · exact Yields.malformed

/-- The parts of all collections that wait get their values, one collection after the other. -/
theorem proceeds_fillAll (fuel : Nat) (s : Construction) : s.Proceeds id (fillAll fuel s) := by
  induction fuel generalizing s with
  | zero => exact .done rfl
  | succ fuel ih =>
    unfold fillAll
    split
    · exact .done rfl
    · next i queue h =>
      have hle : queue.length ≤ s.queue.length := by
        rw [h]
        exact Nat.le_succ _
      exact Proceeds.after (.bind (proceeds_fill _ i) fun r => ih r.2) (later_queue hle)

/-- As long as there is fuel for all collections that can still be filled, none is left. -/
theorem queue_eq_nil_of_fillAll {fuel : Nat} (h : fillAll fuel s = .ok s') (hfair : s.IsFair)
    (hfuel : s.pending ≤ fuel) : s'.queue = [] := by
  induction fuel generalizing s with
  | zero =>
    cases h
    rw [pending] at hfuel
    exact List.eq_nil_of_length_eq_zero (by omega)
  | succ fuel ih =>
    unfold fillAll at h
    split at h
    · next hqueue =>
      cases h
      exact hqueue
    · next i queue hqueue =>
      obtain ⟨r, hr, h⟩ := Except.bind_eq_ok_iff.1 h
      have hlater := (proceeds_fill { s with queue := queue } i).result r hr
      obtain ⟨hfair', hle⟩ := hlater.fair ⟨hfair.inside, hfair.nodup⟩
      refine ih h hfair' ?_
      simp only [pending, hqueue, List.length_cons] at hfuel hle ⊢
      omega

end Construction

/-! ## Documents -/

namespace Document

open Construction

variable [CallStack] {d : Document}

/-- What a document holds is missing only for a fault of its nodes. -/
theorem faultsIn_contents (d : Document) :
    FaultsIn (start d).HasFault d.contents := by
  unfold contents
  refine .bind (proceeds_valueOf _ d.root) fun root _ hroot => ?_
  dsimp only
  split
  · exact .ok trivial
  · have hqueue : Later root.2 { root.2 with queue := [] } := later_queue (Nat.zero_le _)
    have hfill := (proceeds_fill _ d.root).after (hroot.trans hqueue)
    refine .bind hfill fun filled _ hfilled => ?_
    refine .bind (Proceeds.after (proceeds_fillAll _ _) hfilled) fun _ _ _ => ?_
    exact .ite (fun _ => .ok trivial) fun _ => .ok trivial

/-- Once what a document holds is known, no collection in it waits for its parts. -/
theorem queue_eq_nil {root : Value × Construction} {filled : List (Scalar × Value) × Construction}
    {last : Construction} (hroot : (start d).valueOf d.root = .ok root)
    (hfilled : { root.2 with queue := [] }.fill d.root = .ok filled)
    (hlast : fillAll d.nodes.size filled.2 = .ok last) : last.queue = [] := by
  have hlater : Later (start d) root.2 := (proceeds_valueOf _ d.root).result root hroot
  have hqueue : Later root.2 { root.2 with queue := [] } := later_queue (Nat.zero_le _)
  have hall := (hlater.trans hqueue).trans ((proceeds_fill _ d.root).result filled hfilled)
  obtain ⟨hfair, hle⟩ := hall.fair (isFair_start d)
  refine queue_eq_nil_of_fillAll hlast hfair (Nat.le_trans hle ?_)
  exact Nat.le_of_eq (Nat.zero_add _)

end Document

/-! ## Whole streams -/

/-- Where a fault of a text comes from: its characters; its tokens, among which more collections
begin than there is room for, each on two levels at most; or the nodes that they make. -/
inductive Fault.ComesFrom [CallStack] (text : String) : Fault → Prop where
  | characters {f : Fault} (hmem : .fault f ∈ tokenize text.toList) (h : f.OfCharacters) :
    ComesFrom text f
  | tokens {before : List Token} (hbefore : before <+: tokenize text.toList)
    (h : CallStack.composed < 2 * openAt before) : ComesFrom text .tooDeep
  | document {d : Document} {f : Fault}
    (hdocument : Document.ofTokens (tokenize text.toList) = .ok (some d))
    (h : (Construction.start d).HasFault f) : ComesFrom text f

/-- A text that gives no value is malformed, or its fault comes from what it says. -/
theorem comesFrom_of_load [CallStack] {text : String} {f : Fault} (h : load text = .error f)
    (hne : f ≠ .malformed) : f.ComesFrom text := by
  unfold load at h
  rcases Except.bind_eq_error_iff.1 h with htokens | ⟨d?, hdocument, h⟩
  · cases fits_of_ofTokens htokens hne with
    | listed hmem => exact .characters hmem (ofCharacters_of_mem_tokenize hmem hne)
    | tooDeep hbefore hroom => exact .tokens hbefore hroom
  cases d? with
  | none => cases h
  | some d => exact .document hdocument ((Document.faultsIn_contents d).fault f h hne)

end LetFun.Yaml
