import LetFun.Parsed
/-!
# Results of readers

When a step followed by another succeeds or fails, and what it means that a reader returns a value
and leaves a rest, whatever the bound on the rest.
-/

namespace Except

variable {ε ε' α β : Type}

/-- Two steps in a row succeed if both do. -/
theorem bind_eq_ok_iff {x : Except ε α} {f : α → Except ε β} {b : β} :
    (x >>= f) = .ok b ↔ ∃ a, x = .ok a ∧ f a = .ok b := by
  cases x with
  | error e => exact ⟨fun h => (nomatch h), fun ⟨_, h, _⟩ => (nomatch h)⟩
  | ok a => exact ⟨fun h => ⟨a, rfl, h⟩, fun ⟨_, rfl, h⟩ => h⟩

theorem bind_unit_eq_ok_iff {x : Except ε Unit} {y : Except ε β} {b : β} :
    (x >>= fun _ => y) = .ok b ↔ x = .ok () ∧ y = .ok b := by
  rw [bind_eq_ok_iff]
  exact ⟨fun ⟨_, h⟩ => h, fun h => ⟨(), h⟩⟩

/-- Two steps in a row fail where the first of them does. -/
theorem bind_eq_error_iff {x : Except ε α} {f : α → Except ε β} {e : ε} :
    (x >>= f) = .error e ↔ x = .error e ∨ ∃ a, x = .ok a ∧ f a = .error e := by
  cases x with
  | error e' =>
    constructor
    · intro h
      cases h
      exact .inl rfl
    · rintro (h | ⟨_, h, _⟩)
      · cases h
        rfl
      · cases h
  | ok a =>
    constructor
    · exact fun h => .inr ⟨a, rfl, h⟩
    · rintro (h | ⟨_, h, h'⟩)
      · cases h
      · cases h
        exact h'

/-- Two steps after the same one agree if they do so after what it can return. -/
theorem bind_congr_ok {x : Except ε α} {f g : α → Except ε β} (h : ∀ a, x = .ok a → f a = g a) :
    (x >>= f) = (x >>= g) := by
  cases x with
  | error e => rfl
  | ok a => exact h a rfl

/-- Two chains of steps agree, or the first fails in one of some ways, if that holds of
each step. -/
theorem bind_eq_or_error {ι : Type} {x y : Except ε α} {f g : α → Except ε β} {e : ι → ε}
    (hx : x = y ∨ ∃ i, x = .error (e i))
    (hf : ∀ a, x = .ok a → f a = g a ∨ ∃ i, f a = .error (e i)) :
    (x >>= f) = (y >>= g) ∨ ∃ i, (x >>= f) = .error (e i) := by
  rcases hx with rfl | ⟨i, rfl⟩
  · cases hx : x with
    | error e' => exact .inl rfl
    | ok a => exact hf a hx
  · exact .inr ⟨i, rfl⟩

/-- Changing the result changes nothing about success. -/
theorem map_eq_ok_iff {x : Except ε α} {f : α → β} {b : β} :
    x.map f = .ok b ↔ ∃ a, x = .ok a ∧ f a = b := by
  cases x <;> simp [Except.map]

theorem mapError_eq_ok_iff {x : Except ε α} {f : ε → ε'} {a : α} :
    x.mapError f = .ok a ↔ x = .ok a := by
  cases x with
  | error e => exact ⟨fun h => (nomatch h), fun h => (nomatch h)⟩
  | ok b =>
    show (.ok b : Except ε' α) = .ok a ↔ _
    rw [Except.ok.injEq, Except.ok.injEq]

theorem mapError_eq_error_iff {x : Except ε α} {f : ε → ε'} {e' : ε'} :
    x.mapError f = .error e' ↔ ∃ e, x = .error e ∧ f e = e' := by
  cases x with
  | error e =>
    show .error (f e) = (.error e' : Except ε' α) ↔ _
    simp
  | ok a => exact ⟨fun h => (nomatch h), fun ⟨_, h, _⟩ => (nomatch h)⟩

end Except

namespace LetFun

variable {ε τ α β : Type} {m n : Nat}

def Returns (x : Except ε (Parsed τ α n)) (value : α) (rest : List τ) : Prop :=
  ∃ h, x = .ok ⟨value, rest, h⟩

namespace Returns

theorem ok (value : α) (rest : List τ) (h : rest.length < n) :
    Returns (.ok ⟨value, rest, h⟩ : Except ε (Parsed τ α n)) value rest :=
  ⟨h, rfl⟩

/-- What a reader succeeds with, it returns. -/
theorem of_eq {x : Except ε (Parsed τ α n)} {r : Parsed τ α n} (h : x = .ok r) :
    Returns x r.value r.rest :=
  ⟨r.lt_bound, h⟩

/-- A reader after another one goes on with what the first has left. -/
theorem bind {x : Except ε (Parsed τ α m)} {f : Parsed τ α m → Except ε (Parsed τ β n)}
    {a : α} {b : β} {r rest : List τ} (hx : Returns x a r)
    (hf : ∀ h, Returns (f ⟨a, r, h⟩) b rest) : Returns (x >>= f) b rest := by
  obtain ⟨h, rfl⟩ := hx
  exact hf h

theorem bind_pure {x : Except ε (Parsed τ α m)} {f : Parsed τ α m → Parsed τ β n} {a : α} {b : β}
    {r rest : List τ} (hx : Returns x a r)
    (hf : ∀ h, (f ⟨a, r, h⟩).value = b ∧ (f ⟨a, r, h⟩).rest = rest) :
    Returns (x >>= fun p => pure (f p)) b rest := by
  obtain ⟨h, rfl⟩ := hx
  obtain ⟨rfl, rfl⟩ := hf h
  exact of_eq rfl

end Returns

end LetFun
