import LetFun.Json.Read
import LetFun.Proofs.Reader
/-!
# Integers and words in JSON text

An integer with no more digits than the limit is read back as it was written, if the text after it
does not go on with the number (`readPlain_integer`), and so are the words that are values.
-/

namespace LetFun

/-! ## Decimal digits -/

theorem ofDigits_toDigits (n : Nat) : ofDigits (Nat.toDigits 10 n) = n := by
  have h : Nat.ofDigitChars 10 (Nat.toDigits 10 n) 0 = n := Nat.ofDigitChars_ten_toDigits
  rwa [Nat.ofDigitChars_eq_foldl] at h

theorem isDigit_of_mem_toDigits {n : Nat} {c : Char} (h : c ∈ Nat.toDigits 10 n) :
    c.isDigit = true :=
  Nat.isDigit_of_mem_toDigits (by decide) (by decide) h

theorem length_toDigits_le {n k : Nat} (hk : 0 < k) (h : n < Nat.pow 10 k) :
    (Nat.toDigits 10 n).length ≤ k :=
  (Nat.length_toDigits_le_iff (by decide) hk).2 h

-- The first digit of a number is a zero only if the number is zero.
theorem exists_toDigits_eq_cons (n : Nat) :
    ∃ d ds, Nat.toDigits 10 n = d :: ds ∧ d.isDigit = true ∧ (d = '0' → n = 0) := by
  induction n using Nat.strongRecOn with
  | ind n ih =>
    by_cases hn : n < 10
    · have hall : ∀ d < 10, (Nat.digitChar d).isDigit = true ∧ (Nat.digitChar d = '0' → d = 0) := by
        decide
      exact ⟨Nat.digitChar n, [], Nat.toDigits_of_lt_base hn, hall n hn⟩
    · obtain ⟨d, ds, hdigits, hd, hzero⟩ := ih (n / 10) (by omega)
      refine ⟨d, ds ++ [Nat.digitChar (n % 10)], ?_, hd, fun h => ?_⟩
      · rw [Nat.toDigits_of_base_le (by decide) (by omega), hdigits, List.cons_append]
      · have := hzero h
        omega

/-- An integer is written as its sign and its decimal digits. -/
theorem toList_toString (i : Int) :
    (toString i).toList = (if i < 0 then ['-'] else []) ++ Nat.toDigits 10 i.natAbs := by
  cases i with
  | ofNat n =>
    have hn : ¬ Int.ofNat n < 0 := Int.not_lt.2 (Int.natCast_nonneg n)
    rw [if_neg hn]
    exact Nat.toList_repr
  | negSucc n =>
    rw [if_pos (Int.negSucc_lt_zero n)]
    show ("-" ++ Nat.repr (n + 1)).toList = _
    rw [String.toList_append, Nat.toList_repr]
    rfl

theorem ne_of_isDigit {c d : Char} (hc : c.isDigit = false) (hd : d.isDigit = true) : d ≠ c := by
  rintro rfl
  rw [hd] at hc
  cases hc

/-- The text of an integer starts with a minus sign or a digit. -/
theorem exists_toString_eq_cons (i : Int) :
    ∃ c cs, (toString i).toList = c :: cs ∧ (c = '-' ∨ c.isDigit = true) := by
  obtain ⟨d, ds, hdigits, hd, -⟩ := exists_toDigits_eq_cons i.natAbs
  rw [toList_toString, hdigits]
  by_cases hi : i < 0
  · rw [if_pos hi]
    exact ⟨'-', _, rfl, .inl rfl⟩
  · rw [if_neg hi]
    exact ⟨d, _, rfl, .inr hd⟩

/-- The sign and the absolute value make up an integer. -/
theorem withSign_natAbs (i : Int) : withSign (decide (i < 0)) i.natAbs = i := by
  by_cases hi : i < 0
  · rw [withSign, decide_eq_true hi, if_pos rfl]
    omega
  · rw [withSign, decide_eq_false hi, if_neg (by decide)]
    omega

namespace Json

/-! ## Numbers -/

def StopsNumber (cs : List Char) : Prop :=
  ∀ c ∈ cs.head?, c.isDigit = false ∧ c ∉ ['.', 'e', 'E']

variable {cs rest : List Char}

theorem takeWhile_isDigit (hrest : StopsNumber rest) : rest.takeWhile Char.isDigit = [] := by
  cases rest with
  | nil => rfl
  | cons c rest =>
    have hc := (hrest c rfl).1
    exact List.takeWhile_cons_of_neg (by simp [hc])

/-- The digits of a number are read back up to where the number stops. -/
theorem wholeDigits_toDigits (n : Nat) (hrest : StopsNumber rest) :
    wholeDigits (Nat.toDigits 10 n ++ rest) = Nat.toDigits 10 n := by
  obtain ⟨d, ds, hdigits, -, hzero⟩ := exists_toDigits_eq_cons n
  by_cases hd : d = '0'
  · rw [hzero hd]
    rfl
  · rw [wholeDigits]
    · rw [List.takeWhile_append_of_pos fun _ => isDigit_of_mem_toDigits, takeWhile_isDigit hrest,
        List.append_nil]
    · intro tail h
      rw [hdigits] at h
      exact hd (List.cons.inj h).1

theorem fractionDigits_eq_nil (hrest : StopsNumber rest) : fractionDigits rest = [] := by
  rw [fractionDigits]
  rintro tail rfl
  exact (hrest '.' rfl).2 (by decide)

theorem exponentPart_eq_nil (hrest : StopsNumber rest) : exponentPart rest = [] := by
  cases rest with
  | nil => rfl
  | cons c rest =>
    have hc := (hrest c rfl).2
    rw [exponentPart]
    apply if_neg
    rintro ⟨rfl | rfl, -⟩ <;> exact hc (by decide)

-- A sign and digits are read as an integer.
theorem readNumber_toDigits {negative : Bool} {n : Nat}
    (hcs : splitMinus cs = (negative, Nat.toDigits 10 n ++ rest))
    (hn : (Nat.toDigits 10 n).length ≤ digitLimit) (hrest : StopsNumber rest) :
    Returns (readNumber cs) (.integer (withSign negative n)) rest := by
  have hpositive : ¬ (Nat.toDigits 10 n).length = 0 := Nat.ne_of_gt Nat.length_toDigits_pos
  have hwhole := wholeDigits_toDigits n hrest
  have hafter : (Nat.toDigits 10 n ++ rest).drop (Nat.toDigits 10 n).length = rest :=
    List.drop_left
  have hvalue : numberOf negative (Nat.toDigits 10 n) [] [] =
      .ok (.integer (withSign negative n)) := by
    rw [numberOf, if_pos (by rfl), if_neg (Nat.not_lt.2 hn), ofDigits_toDigits]
  unfold readNumber
  simp only [hcs, hwhole, dif_neg hpositive, hafter, fractionDigits_eq_nil hrest,
    exponentPart_eq_nil hrest, afterPart, List.isEmpty_nil, if_true, hvalue]
  exact Returns.ok _ _ _

/-! ## Words -/

/-- A word is dropped where the text begins with it. -/
theorem dropWord?_eq_some_iff {word : List Char} :
    dropWord? word cs = some rest ↔ cs = word ++ rest := by
  fun_induction dropWord? word cs with
  | case1 cs => simp
  | case2 w word => simp
  | case3 w word cs ih => simp [ih]
  | case4 w word c cs hne =>
    constructor
    · intro h
      cases h
    · exact fun h => absurd (List.cons.inj h).1.symm hne

/-- A text that starts with a word is read as its value. -/
theorem readPlain_word {v : Json}
    (h : words.findSome? (fun m => (dropWord? m.1 cs).map (m.2, ·)) = some (v, rest)) :
    Returns (readPlain cs) v rest := by
  rw [readPlain]
  split
  · next hword =>
    obtain ⟨rfl, rfl⟩ := Prod.mk.inj (Option.some.inj (hword.symm.trans h))
    exact Returns.ok _ _ _
  · next hword => cases hword.symm.trans h

-- A text that starts with none of the words is read as a number.
theorem readPlain_eq_readNumber (h : ∀ m ∈ words, ¬ m.1 <+: cs) :
    readPlain cs = readNumber cs := by
  rw [readPlain]
  split
  · next hword =>
    obtain ⟨m, hmem, hdrop⟩ := List.exists_of_findSome?_eq_some hword
    obtain ⟨rest, hrest, -⟩ := Option.map_eq_some_iff.1 hdrop
    exact absurd ⟨rest, (dropWord?_eq_some_iff.1 hrest).symm⟩ (h m hmem)
  · rfl

/-! ## Integers -/

/-- The sign of an integer is read back. -/
theorem splitMinus_toString (i : Int) (rest : List Char) :
    splitMinus ((toString i).toList ++ rest) =
      (decide (i < 0), Nat.toDigits 10 i.natAbs ++ rest) := by
  rw [toList_toString]
  by_cases hi : i < 0
  · rw [if_pos hi, decide_eq_true hi]
    rfl
  · obtain ⟨d, ds, hdigits, hd, -⟩ := exists_toDigits_eq_cons i.natAbs
    rw [if_neg hi, decide_eq_false hi, List.nil_append, splitMinus]
    intro tail h
    rw [hdigits] at h
    rw [(List.cons.inj h).1] at hd
    cases hd

-- No word starts with a digit, or with a minus sign and a digit.
theorem not_prefix_toString (i : Int) (rest : List Char) :
    ∀ m ∈ words, ¬ m.1 <+: (toString i).toList ++ rest := by
  obtain ⟨d, ds, hdigits, hd, -⟩ := exists_toDigits_eq_cons i.natAbs
  have hne : ∀ c : Char, c.isDigit = false → c ≠ d := fun c hc => (ne_of_isDigit hc hd).symm
  rw [toList_toString, hdigits]
  by_cases hi : i < 0
  · simp [hi, words, List.cons_prefix_cons, hne]
  · simp [hi, words, List.cons_prefix_cons, hne]

/-- An integer is read back if it can be shown. -/
theorem readPlain_integer {i : Int} (hi : isShowable i = true) (hrest : StopsNumber rest) :
    Returns (readPlain ((toString i).toList ++ rest)) (.integer i) rest := by
  have hlength : (Nat.toDigits 10 i.natAbs).length ≤ digitLimit :=
    length_toDigits_le (by decide) (of_decide_eq_true hi)
  have hread := readNumber_toDigits (splitMinus_toString i rest) hlength hrest
  rw [withSign_natAbs] at hread
  rw [readPlain_eq_readNumber (not_prefix_toString i rest)]
  exact hread

end Json

end LetFun
