import LetFun.Json.Read
import LetFun.Json.Write
import LetFun.Proofs.Reader
import Mathlib.Algebra.Group.Nat.Defs
/-!
# Strings in JSON text

A string without surrogates is read back as it was written (`readString_flatMap`): every escape
spells one code point, and the escapes of a character above U+FFFF spell the two surrogates that
`pairUp` joins to the character again.
-/

namespace LetFun

/-! ## Hexadecimal digits -/

namespace Hex

theorem value?_digitChar {d : Nat} (h : d < 16) : value? (Nat.digitChar d) = some d := by
  have hall : ∀ d < 16, value? (Nat.digitChar d) = some d := by decide
  exact hall d h

theorem ofDigits?_concat (cs : List Char) (c : Char) :
    ofDigits? (cs ++ [c]) = (ofDigits? cs).bind fun n => (value? c).map (16 * n + ·) := by
  rw [ofDigits?, List.foldl_append, ← ofDigits?, List.foldl_cons, List.foldl_nil]
  cases ofDigits? cs <;> cases value? c <;> rfl

/-- Hexadecimal digits give back the number, as far as there are enough of them. -/
theorem ofDigits?_digits (width n : Nat) : ofDigits? (digits width n) = some (n % 16 ^ width) := by
  induction width generalizing n with
  | zero => rw [Nat.pow_zero, Nat.mod_one]; rfl
  | succ width ih =>
    have hd : n % 16 < 16 := Nat.mod_lt n (by decide)
    rw [digits, ofDigits?_concat, ih, value?_digitChar hd, Nat.pow_succ, Nat.mul_comm, Nat.mod_mul,
      Nat.add_comm]
    rfl

end Hex

/-! ## Code points and the units that spell them -/

namespace CodePoint

/-- A code point is known by its number. -/
theorem ofNat_toNat (p : CodePoint) : ofNat p.toNat = p := by
  cases p with
  | scalar c =>
    have hvalid : c.toNat < 0xD800 ∨ 0xDFFF < c.toNat ∧ c.toNat < 0x110000 := c.valid
    rw [ofNat, toNat, dif_neg (by omega), Char.ofNat_toNat]
  | surrogate offset =>
    have hlt := offset.isLt
    have hrange : 0xD800 ≤ 0xD800 + offset.val ∧ 0xD800 + offset.val < 0xE000 := by omega
    rw [ofNat, toNat, dif_pos hrange]
    exact congrArg surrogate (Fin.ext (Nat.add_sub_cancel_left ..))

theorem toNat_lt (c : Char) : c.toNat < 0x110000 := by
  have hvalid : c.toNat < 0xD800 ∨ 0xDFFF < c.toNat ∧ c.toNat < 0x110000 := c.valid
  omega

theorem lead_lt (c : Char) : (c.toNat - 0x10000) / 1024 < 2048 := by
  have hlt := toNat_lt c
  omega

theorem trail_lt (c : Char) : 1024 + (c.toNat - 0x10000) % 1024 < 2048 := by
  omega

/-- The code points that the escapes of a code point spell, before they are joined: two surrogates
for a character above U+FFFF, and else the code point itself. -/
def units : CodePoint → List CodePoint
  | .surrogate offset => [.surrogate offset]
  | .scalar c =>
    if c.toNat < 0x10000 then [.scalar c]
    else
      [.surrogate ⟨(c.toNat - 0x10000) / 1024, lead_lt c⟩,
        .surrogate ⟨1024 + (c.toNat - 0x10000) % 1024, trail_lt c⟩]

/-- The parts of a code point fit into four digits. -/
theorem toNat_lt_of_mem_units {p u : CodePoint} (h : u ∈ p.units) : u.toNat < 0x10000 := by
  -- Surrogates are below that number, and so are the characters that are their own unit.
  cases u with
  | surrogate offset =>
    have hlt := offset.isLt
    show 0xD800 + offset.val < 0x10000
    omega
  | scalar d =>
    cases p with
    | surrogate offset => simp [units] at h
    | scalar c =>
      by_cases hc : c.toNat < 0x10000
      · rw [units, if_pos hc, List.mem_singleton] at h
        rw [h]
        exact hc
      · simp [units, hc] at h

theorem pairUp_scalar (c : Char) (t : List CodePoint) :
    pairUp (.scalar c :: t) = .scalar c :: pairUp t := by
  rw [pairUp]
  simp

-- The surrogates of a character are joined to the character.
theorem pairUp_units (c : Char) (t : List CodePoint) :
    pairUp (units (.scalar c) ++ t) = .scalar c :: pairUp t := by
  by_cases hc : c.toNat < 0x10000
  · rw [units, if_pos hc]
    exact pairUp_scalar c t
  · have hlt := toNat_lt c
    have hlead : (c.toNat - 0x10000) / 1024 < 1024 := by omega
    have hvalue : 0x10000 + (c.toNat - 0x10000) / 1024 * 1024 +
        (1024 + (c.toNat - 0x10000) % 1024 - 1024) = c.toNat := by omega
    rw [units, if_neg hc, List.cons_append, List.singleton_append, pairUp,
      if_pos ⟨hlead, Nat.le_add_right _ _⟩, hvalue, Char.ofNat_toNat]

/-- Surrogates that come from characters are joined again. -/
theorem pairUp_flatMap_units (cs : List Char) :
    pairUp ((cs.map scalar).flatMap units) = cs.map scalar := by
  induction cs with
  | nil => rfl
  | cons c cs ih => rw [List.map_cons, List.flatMap_cons, pairUp_units, ih]

end CodePoint

/-! ## Reading what is written -/

namespace Json

open CodePoint

variable {opening cs rest : List Char}

/-- An escape with four digits gives the code point with that number. -/
theorem stringBody_unitEscape {n : Nat} (hn : n < 0x10000) (hcs : cs ≠ []) :
    stringBody opening (unitEscape n ++ cs) =
      prepend (CodePoint.ofNat n) (stringBody opening cs) := by
  obtain ⟨e, cs, rfl⟩ := List.exists_cons_of_ne_nil hcs
  obtain ⟨a, b, c, d, hdigits⟩ : ∃ a b c d, Hex.digits 4 n = [a, b, c, d] := ⟨_, _, _, _, rfl⟩
  have hmod : n % 16 ^ 4 = n := Nat.mod_eq_of_lt hn
  rw [unitEscape, hdigits]
  show stringBody opening ('\\' :: 'u' :: a :: b :: c :: d :: e :: cs) = _
  rw [stringBody, ← hdigits, Hex.ofDigits?_digits, hmod]

theorem stringBody_unitEscapes {us : List CodePoint} (hus : ∀ u ∈ us, u.toNat < 0x10000)
    (hcs : cs ≠ []) :
    stringBody opening ((us.flatMap fun u => unitEscape u.toNat) ++ cs) =
      us.foldr prepend (stringBody opening cs) := by
  induction us with
  | nil => rfl
  | cons u us ih =>
    rw [List.forall_mem_cons] at hus
    rw [List.flatMap_cons, List.append_assoc,
      stringBody_unitEscape hus.1 (List.append_ne_nil_of_right_ne_nil _ hcs), ofNat_toNat, ih hus.2]
    rfl

/-- An escape with one letter gives its character. -/
theorem stringBody_escape {c plain : Char} (h : escaped? c = some plain) :
    stringBody opening ('\\' :: c :: cs) = prepend (.scalar plain) (stringBody opening cs) := by
  have hu : c ≠ 'u' := by
    rintro rfl
    cases h
  rw [stringBody, h]
  · exact fun _ _ _ _ _ _ hc _ => hu hc
  · exact hu

/-- Other characters stand for themselves. -/
theorem stringBody_plain {c : Char} (hspace : ' ' ≤ c) (hquote : c ≠ '\x22')
    (hescape : c ≠ '\\') :
    stringBody opening (c :: cs) = prepend (.scalar c) (stringBody opening cs) := by
  have hcontrol : ¬ c < ' ' := Char.not_lt.2 hspace
  rw [stringBody, if_neg hcontrol]
  · exact hquote
  · exact fun h _ => hescape h
  · exact fun _ _ _ _ _ _ h _ => hescape h
  · exact fun _ h _ => hescape h
  · exact fun _ _ h _ => hescape h

-- A code point is written as itself, as an escape of one letter, or with an escape for each of its
-- units.
theorem writePoint_cases (p : CodePoint) :
    (∃ c, p = .scalar c ∧ ' ' ≤ c ∧ c ≤ '~' ∧ c ≠ '\x22' ∧ c ≠ '\\' ∧ writePoint p = [c]) ∨
      (∃ c e, p = .scalar c ∧ c ≤ '~' ∧ escaped? e = some c ∧ writePoint p = ['\\', e]) ∨
        writePoint p = p.units.flatMap fun u => unitEscape u.toNat := by
  cases p with
  | surrogate offset => exact .inr (.inr (by simp [writePoint, units, CodePoint.toNat]))
  | scalar c =>
    rw [writePoint]
    -- Seven characters are escaped by a letter.
    by_cases hquote : c = '\x22'
    · subst hquote
      exact .inr (.inl ⟨_, '\x22', rfl, by decide, rfl, rfl⟩)
    by_cases hescape : c = '\\'
    · subst hescape
      exact .inr (.inl ⟨_, '\\', rfl, by decide, rfl, rfl⟩)
    by_cases hn : c = '\n'
    · subst hn
      exact .inr (.inl ⟨_, 'n', rfl, by decide, rfl, rfl⟩)
    by_cases hr : c = '\r'
    · subst hr
      exact .inr (.inl ⟨_, 'r', rfl, by decide, rfl, rfl⟩)
    by_cases ht : c = '\t'
    · subst ht
      exact .inr (.inl ⟨_, 't', rfl, by decide, rfl, rfl⟩)
    by_cases hb : c = '\x08'
    · subst hb
      exact .inr (.inl ⟨_, 'b', rfl, by decide, rfl, rfl⟩)
    by_cases hf : c = '\x0c'
    · subst hf
      exact .inr (.inl ⟨_, 'f', rfl, by decide, rfl, rfl⟩)
    rw [if_neg hquote, if_neg hescape, if_neg hn, if_neg hr, if_neg ht, if_neg hb, if_neg hf]
    by_cases hplain : ' ' ≤ c ∧ c ≤ '~'
    · exact .inl ⟨c, rfl, hplain.1, hplain.2, hquote, hescape, if_pos hplain⟩
    · rw [if_neg hplain]
      refine .inr (.inr ?_)
      by_cases hlow : c.toNat < 0x10000
      · simp [units, hlow, CodePoint.toNat]
      · simp [units, hlow, CodePoint.toNat, ← Nat.add_assoc]

-- What is written for a code point is read as its units.
theorem stringBody_writePoint (p : CodePoint) (hcs : cs ≠ []) :
    stringBody opening (writePoint p ++ cs) = p.units.foldr prepend (stringBody opening cs) := by
  have hself : ∀ c : Char, c ≤ '~' → units (.scalar c) = [.scalar c] := fun c hc =>
    if_pos (Nat.lt_of_le_of_lt hc (by decide))
  rcases writePoint_cases p with ⟨c, rfl, hspace, htilde, hquote, hescape, hp⟩ |
    ⟨c, e, rfl, htilde, he, hp⟩ | hp
  · rw [hp, hself c htilde]
    exact stringBody_plain hspace hquote hescape
  · rw [hp, hself c htilde]
    exact stringBody_escape he
  · rw [hp]
    exact stringBody_unitEscapes (fun u hu => toNat_lt_of_mem_units hu) hcs

/-- A text is read as the parts of its code points up to the closing quote. -/
theorem stringBody_flatMap (t : Text) :
    stringBody opening (t.flatMap writePoint ++ '\x22' :: rest) =
      .ok (t.flatMap units, rest) := by
  induction t with
  | nil => rfl
  | cons p t ih =>
    rw [List.flatMap_cons, List.append_assoc, stringBody_writePoint p (by simp), ih,
      List.flatMap_cons]
    induction p.units with
    | nil => rfl
    | cons q qs ihq => rw [List.foldr_cons, ihq]; rfl

/-- A string is read back, and the text after it is left. -/
theorem readString_flatMap (s : String) :
    Returns (readString opening ((Text.ofString s).flatMap writePoint ++ '\x22' :: rest))
      (Text.ofString s) rest := by
  rw [readString]
  split
  · next h =>
    rw [stringBody_flatMap] at h
    cases h
  · next h =>
    rw [stringBody_flatMap] at h
    cases h
    have hpaired : pairUp ((Text.ofString s).flatMap units) = Text.ofString s :=
      pairUp_flatMap_units s.toList
    simp only [hpaired]
    exact Returns.ok _ _ _

/-- A key is read back from its text. -/
theorem readKey_writeString (s : String) :
    Returns (readKey (writeString (Text.ofString s) rest)) (Text.ofString s) rest := by
  have hstring : Returns (readString (writeString (Text.ofString s) rest)
      ((Text.ofString s).flatMap writePoint ++ '\x22' :: rest)) (Text.ofString s) rest :=
    readString_flatMap s
  obtain ⟨hlt, hread⟩ := hstring
  rw [writeString] at hread ⊢
  rw [readKey, hread]
  exact Returns.ok _ _ _

end Json

end LetFun
