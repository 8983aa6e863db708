import LetFun.Proofs.Reader
import LetFun.Yaml.Construction
/-!
# Keys of mappings

A mapping that a stream holds has different keys (`hasDistinctKeys_of_load`), so that a text is the
key of one value at most (`HasDistinctNames.unique`).
-/

namespace LetFun.Yaml

variable {entries : List (Scalar × Value)} {e : Scalar × Value} {k key : Scalar} {v v' : Value}
  {name : Text} {text : String}

def HasDistinctKeys (entries : List (Scalar × Value)) : Prop :=
  entries.Pairwise fun e f => e.1.same f.1 = false

/-- No text is the key of an entry and of one before it. -/
def HasDistinctNames (entries : List (Scalar × Value)) : Prop :=
  entries.Pairwise fun e f => ∀ name, e.1 = .text name → f.1 ≠ .text name

/-- Only a text is the same key as a text. -/
theorem Scalar.same_text_iff : k.same (.text name) = true ↔ k = .text name := by
  unfold same
  cases k with
  | text s => simp [toInt?]
  | float x => cases h : (Binary.ofFloat? x).bind Binary.toInt? <;> simp [toInt?, h]
  | _ => simp [toInt?]

/-- Two NaN are no names, so different keys have different names. -/
theorem HasDistinctKeys.hasDistinctNames (h : HasDistinctKeys entries) :
    HasDistinctNames entries := by
  refine h.imp fun {e f} hne name he hf => ?_
  have hsame : e.1.same f.1 = true := by rw [hf, Scalar.same_text_iff, he]
  rw [hne] at hsame
  cases hsame

/-- A text is the key of one value at most. -/
theorem HasDistinctNames.unique (h : HasDistinctNames entries) (hv : (.text name, v) ∈ entries)
    (hv' : (.text name, v') ∈ entries) : v = v' := by
  induction h with
  | nil => cases hv
  | @cons e rest hfirst _ ih =>
    rcases List.mem_cons.1 hv with rfl | hrest
    · rcases List.mem_cons.1 hv' with heq | hrest'
      · exact (congrArg Prod.snd heq).symm
      · exact absurd rfl (hfirst _ hrest' name rfl)
    · rcases List.mem_cons.1 hv' with rfl | hrest'
      · exact absurd rfl (hfirst _ hrest name rfl)
      · exact ih hrest hrest'

/-! ## Mappings of documents -/

/-- A new entry brings no key but its own. -/
theorem key_of_mem_putEntry (h : e ∈ putEntry key v entries) :
    e.1 = key ∨ ∃ f ∈ entries, f.1 = e.1 := by
  induction entries with
  | nil =>
    rw [putEntry, List.mem_singleton] at h
    exact .inl (congrArg Prod.fst h)
  | cons f rest ih =>
    rw [putEntry] at h
    by_cases hsame : f.1.same key = true
    · rw [if_pos hsame] at h
      rcases List.mem_cons.1 h with rfl | h
      · exact .inr ⟨f, List.mem_cons_self, rfl⟩
      · exact .inr ⟨e, List.mem_cons_of_mem f h, rfl⟩
    · rw [if_neg hsame] at h
      rcases List.mem_cons.1 h with rfl | h
      · exact .inr ⟨_, List.mem_cons_self, rfl⟩
      · rcases ih h with hkey | ⟨g, hg, heq⟩
        · exact .inl hkey
        · exact .inr ⟨g, List.mem_cons_of_mem f hg, heq⟩

/-- An entry replaces one with the same key, so keys stay different. -/
theorem hasDistinctKeys_putEntry (h : HasDistinctKeys entries) (key : Scalar) (v : Value) :
    HasDistinctKeys (putEntry key v entries) := by
  induction h with
  | nil => exact List.pairwise_singleton _ _
  | @cons e rest hfirst hrest ih =>
    rw [putEntry]
    by_cases hsame : e.1.same key = true
    · rw [if_pos hsame]
      exact List.Pairwise.cons hfirst hrest
    · rw [if_neg hsame]
      apply List.Pairwise.cons _ ih
      intro f hf
      rcases key_of_mem_putEntry hf with hkey | ⟨g, hg, heq⟩
      · rw [hkey]
        exact Bool.eq_false_iff.2 hsame
      · rw [← heq]
        exact hfirst g hg

theorem hasDistinctKeys_foldl (added : List (Scalar × Value)) (h : HasDistinctKeys entries) :
    HasDistinctKeys (added.foldl (fun es e => putEntry e.1 e.2 es) entries) := by
  induction added generalizing entries with
  | nil => exact h
  | cons e rest ih => exact ih (hasDistinctKeys_putEntry h e.1 e.2)

/-- The keys of a mapping that a stream holds are different. -/
theorem hasDistinctKeys_of_load [CallStack] (h : load text = .ok (.mapping entries)) :
    HasDistinctKeys entries := by
  unfold load at h
  obtain ⟨d?, -, h⟩ := Except.bind_eq_ok_iff.1 h
  cases d? with
  | none => cases h
  | some d =>
    obtain ⟨root, -, h⟩ := Except.bind_eq_ok_iff.1 h
    dsimp only at h
    split at h
    · cases h
    · obtain ⟨filled, -, h⟩ := Except.bind_eq_ok_iff.1 h
      obtain ⟨_, -, h⟩ := Except.bind_eq_ok_iff.1 h
      split at h
      · cases h
        exact hasDistinctKeys_foldl filled.1 .nil
      · cases h

end LetFun.Yaml
