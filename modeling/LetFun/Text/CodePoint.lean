/-!
# Code points

Text that may hold surrogates without a partner. Such text arises only from escapes; every
`String` is text (`ofString`), and text without surrogates is a `String` (`toString?`).
-/

namespace LetFun

/-- A character, or one of the 2048 surrogates, counted from U+D800. -/
inductive CodePoint where
  | scalar (c : Char)
  | surrogate (offset : Fin 2048)
deriving DecidableEq, Repr

namespace CodePoint

def toNat : CodePoint → Nat
  | .scalar c => c.toNat
  | .surrogate offset => 0xD800 + offset

def ofNat (n : Nat) : CodePoint :=
  if h : 0xD800 ≤ n ∧ n < 0xE000 then .surrogate ⟨n - 0xD800, by omega⟩
  else .scalar (Char.ofNat n)

instance : LT CodePoint :=
  ⟨fun p q => p.toNat < q.toNat⟩

instance : LE CodePoint :=
  ⟨fun p q => p.toNat ≤ q.toNat⟩

instance (p q : CodePoint) : Decidable (p < q) :=
  inferInstanceAs (Decidable (p.toNat < q.toNat))

/-- Code points with the same number are the same. -/
theorem toNat_injective {p q : CodePoint} (h : p.toNat = q.toNat) : p = q := by
  have hscalar : ∀ c : Char, ¬ (0xD800 ≤ c.toNat ∧ c.toNat < 0xE000) := by
    rintro c ⟨hlow, hhigh⟩
    rcases c.valid with hvalid | ⟨hvalid, -⟩
    · exact Nat.not_lt.2 hlow hvalid
    · exact Nat.not_lt.2 (Nat.le_of_lt_succ hhigh) hvalid
  cases p with
  | scalar c =>
    cases q with
    | scalar d => rw [Char.toNat_inj.1 h]
    | surrogate i =>
      simp only [toNat] at h
      exact absurd ⟨by omega, by omega⟩ (hscalar c)
  | surrogate i =>
    cases q with
    | scalar d =>
      simp only [toNat] at h
      exact absurd ⟨by omega, by omega⟩ (hscalar d)
    | surrogate j =>
      simp only [toNat] at h
      exact congrArg _ (Fin.ext (by omega))

instance : Std.IsLinearOrder CodePoint where
  le_refl p := Nat.le_refl p.toNat
  le_trans _ _ _ := Nat.le_trans
  le_antisymm _ _ hpq hqp := toNat_injective (Nat.le_antisymm hpq hqp)
  le_total p q := Nat.le_total p.toNat q.toNat

instance : Std.LawfulOrderLT CodePoint where
  lt_iff p q := by
    show p.toNat < q.toNat ↔ p.toNat ≤ q.toNat ∧ ¬ q.toNat ≤ p.toNat
    omega

def char? : CodePoint → Option Char
  | .scalar c => some c
  | .surrogate _ => none

/-- Joins each leading surrogate with a trailing surrogate right after it. -/
def pairUp : List CodePoint → List CodePoint
  | .surrogate lead :: .surrogate trail :: rest =>
    if lead.val < 1024 ∧ 1024 ≤ trail.val then
      .scalar (Char.ofNat (0x10000 + lead * 1024 + (trail - 1024))) :: pairUp rest
    else
      .surrogate lead :: pairUp (.surrogate trail :: rest)
  | p :: rest => p :: pairUp rest
  | [] => []

end CodePoint

abbrev Text := List CodePoint

namespace Text

def ofChars (cs : List Char) : Text :=
  cs.map .scalar

def ofString (s : String) : Text :=
  s.toList.map .scalar

instance : Coe String Text :=
  ⟨ofString⟩

/-- The characters of text, with a replacement for each surrogate. -/
def chars (t : Text) : List Char :=
  t.map fun
    | .scalar c => c
    | .surrogate _ => '\ufffd'

def toString? (t : Text) : Option String :=
  (t.mapM CodePoint.char?).map String.ofList

theorem mapM_char?_scalar (cs : List Char) :
    (cs.map CodePoint.scalar).mapM CodePoint.char? = some cs := by
  induction cs with
  | nil => rfl
  | cons c cs ih => simp [CodePoint.char?, ih]

@[simp] theorem toString?_ofString (s : String) : toString? (ofString s) = some s := by
  rw [toString?, ofString, mapM_char?_scalar]
  simp

/-- Strings with the same code points are the same. -/
theorem ofString_injective {s t : String} (h : ofString s = ofString t) : s = t := by
  have := congrArg toString? h
  simpa using this

end Text

end LetFun
