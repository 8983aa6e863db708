/-!
# Results of readers

A reader takes a list from the front and hands back what it did not take. `Parsed` keeps with the
rest the bound on its length that makes loops over readers end.
-/

namespace LetFun

/-- A value read from the front of a list, and the rest: fewer than `bound` elements. -/
structure Parsed (ε α : Type) (bound : Nat) where
  value : α
  rest : List ε
  lt_bound : rest.length < bound

namespace Parsed

variable {ε α β : Type} {m n : Nat}

def widen (p : Parsed ε α m) (h : m ≤ n) : Parsed ε α n :=
  ⟨p.value, p.rest, Nat.lt_of_lt_of_le p.lt_bound h⟩

def map (f : α → β) (p : Parsed ε α n) : Parsed ε β n :=
  ⟨f p.value, p.rest, p.lt_bound⟩

@[simp] theorem widen_rest (p : Parsed ε α m) (h : m ≤ n) : (p.widen h).rest = p.rest := rfl

@[simp] theorem map_rest (f : α → β) (p : Parsed ε α n) : (p.map f).rest = p.rest := rfl

end Parsed

end LetFun
