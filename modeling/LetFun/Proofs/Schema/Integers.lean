import LetFun.Tree.Schema
import Mathlib.Algebra.Group.Int.Defs
import Mathlib.Algebra.Group.Nat.Defs
/-!
# What counts as an integer

In the data of a node other values than integers count as integers: truth values, whole numbers of
moderate size and text that spells a whole number (`Json.CountsAs`).
-/

namespace LetFun

variable {cs ds before after core : List Char} {c : Char} {negative : Bool} {i : Int}

/-! ## Text that spells an integer -/

inductive Grouped : List Char → List Char → Prop where
  | last {c : Char} (hc : c.isDigit = true) : Grouped [c] [c]
  | digit {c : Char} {cs ds : List Char} (hc : c.isDigit = true) (h : Grouped cs ds) :
    Grouped (c :: cs) (c :: ds)
  | underscore {c : Char} {cs ds : List Char} (hc : c.isDigit = true) (h : Grouped cs ds) :
    Grouped (c :: '_' :: cs) (c :: ds)

inductive IsSign : List Char → Bool → Prop where
  | none : IsSign [] false
  | plus : IsSign ['+'] false
  | minus : IsSign ['-'] true

inductive IsZeros : List Char → Prop where
  | none : IsZeros []
  | point {zeros : List Char} (hne : zeros ≠ []) (h : ∀ c ∈ zeros, c = '0') :
    IsZeros ('.' :: zeros)

/-- Text spells a whole number: digits with a sign before them and zeros behind a point after them,
in white space. The digits from the first that is not zero on, and a minus sign, are within the
limit. -/
inductive SpellsWhole : List Char → Int → Prop where
  | mk {before sign body digits fraction after : List Char} {negative : Bool}
    (hbefore : ∀ c ∈ before, isWhiteSpace c = true) (hsign : IsSign sign negative)
    (hbody : Grouped body digits) (hfraction : IsZeros fraction)
    (hafter : ∀ c ∈ after, isWhiteSpace c = true)
    (hlimit : (digits.dropWhile (· = '0')).length + (if negative then 1 else 0) ≤ digitLimit) :
    SpellsWhole (before ++ (sign ++ (body ++ fraction) ++ after))
      (withSign negative (ofDigits digits))

theorem Grouped.exists_cons (h : Grouped (c :: cs) ds) :
    c.isDigit = true ∧ ∃ ds', ds = c :: ds' := by
  cases h with
  | last hc => exact ⟨hc, [], rfl⟩
  | digit hc => exact ⟨hc, _, rfl⟩
  | underscore hc => exact ⟨hc, _, rfl⟩

theorem Grouped.isDigit_or (h : Grouped cs ds) : ∀ c ∈ cs, c.isDigit = true ∨ c = '_' := by
  induction h with
  | last hc => exact List.forall_mem_singleton.2 (.inl hc)
  | digit hc _ ih => exact List.forall_mem_cons.2 ⟨.inl hc, ih⟩
  | underscore hc _ ih =>
    exact List.forall_mem_cons.2 ⟨.inl hc, List.forall_mem_cons.2 ⟨.inr rfl, ih⟩⟩

-- What may follow depends on whether a digit comes before, so both cases go through together.
theorem dropUnderscores_eq_some_iff (hcs : ∀ c ∈ cs, c.isDigit = true ∨ c = '_') :
    (dropUnderscores false cs = some ds ↔ Grouped cs ds) ∧
      ∀ c, c.isDigit = true →
        (dropUnderscores true cs = some ds ↔ Grouped (c :: cs) (c :: ds)) := by
  induction cs generalizing ds with
  | nil =>
    refine ⟨⟨fun h => (nomatch h), fun h => (nomatch h)⟩, fun c hc => ⟨fun h => ?_, fun h => ?_⟩⟩
    · cases h
      exact .last hc
    · cases h with
      | last => rfl
      | digit _ h => cases h
  | cons d cs ih =>
    rw [List.forall_mem_cons] at hcs
    have hfalse : '_'.isDigit ≠ true := by decide
    -- An underscore needs a digit before it and one behind it; a digit may come anywhere.
    by_cases hd : d = '_'
    · subst hd
      refine ⟨⟨fun h => (nomatch h), fun h => absurd h.exists_cons.1 hfalse⟩, fun c hc => ?_⟩
      show dropUnderscores false cs = some ds ↔ _
      rw [(ih hcs.2).1]
      constructor
      · exact .underscore hc
      · intro h
        cases h with
        | digit _ h => exact absurd h.exists_cons.1 hfalse
        | underscore _ h => exact h
    · have hdigit := hcs.1.resolve_right hd
      have hcons : (dropUnderscores true cs).map (d :: ·) = some ds ↔ Grouped (d :: cs) ds := by
        rw [Option.map_eq_some_iff]
        constructor
        · rintro ⟨ds', h, rfl⟩
          exact ((ih hcs.2).2 d hdigit).1 h
        · intro h
          obtain ⟨-, ds', rfl⟩ := h.exists_cons
          exact ⟨ds', ((ih hcs.2).2 d hdigit).2 h, rfl⟩
      have hdrop (afterDigit : Bool) : dropUnderscores afterDigit (d :: cs) =
          (dropUnderscores true cs).map (d :: ·) := by
        rw [dropUnderscores, if_neg hd]
      refine ⟨by rw [hdrop, hcons], fun c hc => ?_⟩
      rw [hdrop, hcons]
      constructor
      · exact .digit hc
      · intro h
        cases h with
        | digit _ h => exact h
        | underscore => exact absurd rfl hd

/-! ## Parts of the text -/

theorem trim_append {p : Char → Bool} (hbefore : ∀ c ∈ before, p c = true)
    (hcore : ∀ c ∈ core, p c = false) (hafter : ∀ c ∈ after, p c = true) :
    trim p (before ++ (core ++ after)) = core := by
  have hskip {l m : List Char} (hl : ∀ c ∈ l, p c = true) (hm : ∀ c ∈ m, p c = false) :
      (l ++ m).dropWhile p = m := by
    rw [List.dropWhile_append_of_pos hl]
    cases m with
    | nil => rfl
    | cons c m => exact List.dropWhile_cons_of_neg (by simp [hm c List.mem_cons_self])
  unfold trim
  rw [List.dropWhile_append_of_pos hbefore]
  cases core with
  | nil =>
    have hnone := hskip hafter (m := []) fun _ h => (nomatch h)
    rw [List.append_nil] at hnone
    rw [List.nil_append, hnone]
    rfl
  | cons c core =>
    rw [List.cons_append, List.dropWhile_cons_of_neg (by simp [hcore c List.mem_cons_self]),
      ← List.cons_append, List.reverse_append, hskip, List.reverse_reverse]
    · exact fun c hc => hafter c (List.mem_reverse.1 hc)
    · exact fun c hc => hcore c (List.mem_reverse.1 hc)

/-- Text is what is left of it with what was taken away around it. -/
theorem exists_trim (p : Char → Bool) (cs : List Char) :
    ∃ before after, cs = before ++ (trim p cs ++ after) ∧ (∀ c ∈ before, p c = true) ∧
      ∀ c ∈ after, p c = true := by
  refine ⟨cs.takeWhile p, ((cs.dropWhile p).reverse.takeWhile p).reverse, ?_, ?_, ?_⟩
  · rw [trim, ← List.reverse_append, List.takeWhile_append_dropWhile, List.reverse_reverse,
      List.takeWhile_append_dropWhile]
  · intro c hc
    exact List.all_eq_true.1 List.all_takeWhile c hc
  · intro c hc
    exact List.all_eq_true.1 List.all_takeWhile c (List.mem_reverse.1 hc)

theorem isSign_splitSign (cs : List Char) :
    ∃ sign, IsSign sign (splitSign cs).1 ∧ cs = sign ++ (splitSign cs).2 := by
  fun_cases splitSign cs with
  | case1 cs => exact ⟨['+'], .plus, rfl⟩
  | case2 cs => exact ⟨['-'], .minus, rfl⟩
  | case3 cs => exact ⟨[], .none, rfl⟩

/-- A sign is taken off digits as it was put there. -/
theorem IsSign.splitSign_append {sign : List Char} (h : IsSign sign negative)
    (hplus : c ≠ '+') (hminus : c ≠ '-') :
    splitSign (sign ++ (c :: cs)) = (negative, c :: cs) := by
  cases h with
  | none =>
    show splitSign (c :: cs) = _
    unfold splitSign
    split
    · next heq => exact absurd (List.cons.inj heq).1 hplus
    · next heq => exact absurd (List.cons.inj heq).1 hminus
    · rfl
  | plus => rfl
  | minus => rfl

/-- The check for zeros behind a point is right. -/
theorem isZeroFraction_iff : isZeroFraction cs = true ↔ IsZeros cs := by
  constructor
  · intro h
    unfold isZeroFraction at h
    split at h
    · exact .none
    · simp only [Bool.and_eq_true, Bool.not_eq_true', List.isEmpty_eq_false_iff, List.all_eq_true,
        decide_eq_true_eq] at h
      exact .point h.1 h.2
    · cases h
  · intro h
    cases h with
    | none => rfl
    | point hne h => simpa [isZeroFraction] using ⟨hne, h⟩

/-- Zeros in front of digits do not change what they spell. -/
theorem ofDigits_dropWhile (ds : List Char) : ofDigits (ds.dropWhile (· = '0')) = ofDigits ds := by
  induction ds with
  | nil => rfl
  | cons c ds ih =>
    by_cases hc : c = '0'
    · rw [List.dropWhile_cons_of_pos (by simpa using hc), ih, hc]
      rfl
    · rw [List.dropWhile_cons_of_neg (by simpa using hc)]

/-! ## Whole numbers in text -/

theorem isWhiteSpace_of_isDigit (h : c.isDigit = true) : isWhiteSpace c = false := by
  have hrange : 48 ≤ c.toNat ∧ c.toNat ≤ 57 := Char.isDigit_iff_toNat.1 h
  unfold isWhiteSpace
  simp only [Bool.or_eq_false_iff, Bool.and_eq_false_iff, decide_eq_false_iff_not]
  omega

theorem IsSign.isWhiteSpace {sign : List Char} (h : IsSign sign negative) :
    ∀ c ∈ sign, isWhiteSpace c = false := by
  cases h with
  | none => exact List.forall_mem_nil _
  | plus | minus => exact List.forall_mem_singleton.2 (by decide)

theorem IsZeros.isWhiteSpace (h : IsZeros cs) : ∀ c ∈ cs, isWhiteSpace c = false := by
  cases h with
  | none => exact fun _ hc => (nomatch hc)
  | point _ h =>
    refine List.forall_mem_cons.2 ⟨by decide, fun c hc => ?_⟩
    rw [h c hc]
    decide

/-- Grouped digits have no white space among them. -/
theorem Grouped.isWhiteSpace (h : Grouped cs ds) : ∀ c ∈ cs, isWhiteSpace c = false := by
  intro c hc
  rcases h.isDigit_or c hc with hdigit | rfl
  · exact isWhiteSpace_of_isDigit hdigit
  · decide

theorem Grouped.exists_eq_cons (h : Grouped cs ds) : ∃ c cs', c.isDigit = true ∧ cs = c :: cs' := by
  cases h with
  | last hc => exact ⟨_, _, hc, rfl⟩
  | digit hc => exact ⟨_, _, hc, rfl⟩
  | underscore hc => exact ⟨_, _, hc, rfl⟩

-- The digits end where the zeros behind the point start.
theorem IsZeros.takeWhile_append (h : IsZeros ds) (hcs : ∀ c ∈ cs, c.isDigit = true ∨ c = '_') :
    (cs ++ ds).takeWhile (fun c => c.isDigit || c = '_') = cs ∧
      (cs ++ ds).dropWhile (fun c => c.isDigit || c = '_') = ds := by
  have hpart : ∀ c ∈ cs, (c.isDigit || c = '_') = true := by simpa using hcs
  rw [List.takeWhile_append_of_pos hpart, List.dropWhile_append_of_pos hpart]
  cases h with
  | none => exact ⟨List.append_nil cs, rfl⟩
  | point => exact ⟨List.append_nil cs, rfl⟩

/-- What is read as an integer is the text that spells it. -/
theorem readWhole_eq_ok_iff : readWhole cs = .ok i ↔ SpellsWhole cs i := by
  constructor
  · intro h
    obtain ⟨before, after, hcs, hbefore, hafter⟩ := exists_trim isWhiteSpace cs
    obtain ⟨sign, hsign, hcore⟩ := isSign_splitSign (trim isWhiteSpace cs)
    unfold readWhole at h
    rcases hsplit : splitSign (trim isWhiteSpace cs) with ⟨negative, unsigned⟩
    rw [hsplit] at h hsign hcore
    dsimp only at h hsign hcore
    -- The text falls into white space, a sign, digits with underscores, and what is left.
    have hbody := List.takeWhile_append_dropWhile (p := fun c => c.isDigit || c = '_')
      (l := unsigned)
    have hpart : ∀ c ∈ unsigned.takeWhile (fun c => c.isDigit || c = '_'),
        c.isDigit = true ∨ c = '_' := by
      intro c hc
      simpa using List.all_eq_true.1 List.all_takeWhile c hc
    generalize unsigned.takeWhile (fun c => c.isDigit || c = '_') = body at h hbody hpart
    generalize unsigned.dropWhile (fun c => c.isDigit || c = '_') = fraction at h hbody
    cases hdigits : dropUnderscores false body with
    | none =>
      rw [hdigits] at h
      cases h
    | some digits =>
      rw [hdigits] at h
      dsimp only at h
      by_cases hlimit : digitLimit <
          (digits.dropWhile (· = '0')).length + (if negative then 1 else 0)
      · rw [if_pos hlimit] at h
        cases h
      · rw [if_neg hlimit] at h
        by_cases hfraction : isZeroFraction fraction = true
        · rw [if_pos hfraction, ofDigits_dropWhile] at h
          cases h
          rw [hcs, hcore, ← hbody]
          exact .mk hbefore hsign ((dropUnderscores_eq_some_iff hpart).1.1 hdigits)
            (isZeroFraction_iff.1 hfraction) hafter (Nat.le_of_not_lt hlimit)
        · rw [if_neg hfraction] at h
          cases h
  · intro h
    cases h with
    | @mk before sign body digits fraction after negative hbefore hsign hbody hfraction hafter
        hlimit =>
      obtain ⟨c, body', hc, hcons⟩ := hbody.exists_eq_cons
      have hcore : ∀ c ∈ sign ++ (body ++ fraction), isWhiteSpace c = false := by
        simp only [List.forall_mem_append]
        exact ⟨hsign.isWhiteSpace, hbody.isWhiteSpace, hfraction.isWhiteSpace⟩
      -- The sign ends before the first digit, so nothing else is taken for it.
      have hsplit : splitSign (sign ++ (body ++ fraction)) = (negative, body ++ fraction) := by
        rw [hcons, List.cons_append]
        apply hsign.splitSign_append <;>
        · rintro rfl
          exact absurd hc (by decide)
      obtain ⟨htake, hdrop⟩ := hfraction.takeWhile_append hbody.isDigit_or
      unfold readWhole
      rw [trim_append hbefore hcore hafter, hsplit]
      dsimp only
      rw [htake, hdrop, (dropUnderscores_eq_some_iff hbody.isDigit_or).1.2 hbody]
      dsimp only
      rw [if_neg (Nat.not_lt.2 hlimit), if_pos (isZeroFraction_iff.2 hfraction),
        ofDigits_dropWhile]

/-! ## Whole numbers of double precision -/

/-- A finite number is equal to an integer; both are multiplied so that no fractions are left. -/
def Binary.IsInteger (b : Binary) (i : Int) : Prop :=
  i * 2 ^ (-b.exponent).toNat = withSign b.negative b.mantissa * 2 ^ b.exponent.toNat

theorem withSign_mul (negative : Bool) (m n : Nat) :
    withSign negative (m * n) = withSign negative m * n := by
  cases negative with
  | true =>
    show -((m * n : Nat) : Int) = -(m : Int) * n
    rw [Int.natCast_mul, Int.neg_mul]
  | false => exact Int.natCast_mul m n

/-- A quotient has no remainder just if the divisor times an integer gives the dividend. -/
theorem withSign_eq_iff {d : Nat} (hd : 0 < d) (negative : Bool) (m : Nat) (i : Int) :
    m % d = 0 ∧ withSign negative (m / d : Nat) = i ↔ i * d = withSign negative m := by
  constructor
  · rintro ⟨hmod, rfl⟩
    rw [← withSign_mul, Nat.div_mul_cancel (Nat.dvd_of_mod_eq_zero hmod)]
  · intro h
    have hdvd : d ∣ m := by
      rw [← Int.natAbs_natCast m, ← Int.natAbs_natCast d, Int.natAbs_dvd_natAbs]
      cases negative with
      | true => exact Int.dvd_neg.1 ⟨i, by rw [Int.mul_comm]; exact h.symm⟩
      | false => exact ⟨i, by rw [Int.mul_comm]; exact h.symm⟩
    refine ⟨Nat.mod_eq_zero_of_dvd hdvd, ?_⟩
    have hd' : (d : Int) ≠ 0 := by omega
    apply Int.eq_of_mul_eq_mul_right hd'
    rw [← withSign_mul, Nat.div_mul_cancel hdvd, h]

/-- A number is read as the integer that it is equal to. -/
theorem Binary.toInt?_eq_some_iff {b : Binary} : b.toInt? = some i ↔ b.IsInteger i := by
  have hquotient (num den : Nat) (hden : 0 < den) (h : b.quotient = (num, den)) :
      b.toInt? = some i ↔ i * den = withSign b.negative num := by
    unfold toInt?
    rw [h]
    dsimp only
    rw [← withSign_eq_iff hden]
    by_cases hmod : num % den = 0
    · rw [if_pos hmod, Option.some.injEq]
      exact (and_iff_right hmod).symm
    · rw [if_neg hmod]
      exact ⟨fun h => (nomatch h), fun h => absurd h.1 hmod⟩
  unfold IsInteger
  by_cases hexponent : 0 ≤ b.exponent
  · have hzero : (-b.exponent).toNat = 0 := by omega
    rw [hquotient _ _ Nat.one_pos (if_pos hexponent), Nat.shiftLeft_eq, withSign_mul, hzero]
    simp
  · have hzero : b.exponent.toNat = 0 := by omega
    rw [hquotient _ _ _ (if_neg hexponent), Nat.shiftLeft_eq, hzero]
    · simp
    · rw [Nat.shiftLeft_eq]
      exact Nat.mul_pos Nat.one_pos (Nat.two_pow_pos _)

/-! ## Values -/

/-- A value counts as an integer: an integer as itself, a truth value as 0 or 1, a whole number of
moderate size as the integer it is equal to, and text as the integer that it spells. -/
inductive Json.CountsAs : Json → Int → Prop where
  | integer (i : Int) : CountsAs (.integer i) i
  | bool (b : Bool) : CountsAs (.bool b) (if b then 1 else 0)
  | float {x : Float} {b : Binary} {i : Int} (hfinite : Binary.ofFloat? x = some b)
    (hwhole : b.IsInteger i) (hsize : i.natAbs < 2 ^ 63) : CountsAs (.float x) i
  | string {s : String} {i : Int} (h : SpellsWhole s.toList i) :
    CountsAs (.string (Text.ofString s)) i

/-- Text is a string just if it comes from one. -/
theorem Text.toString?_eq_some_iff {t : Text} {s : String} :
    t.toString? = some s ↔ t = Text.ofString s := by
  constructor
  · intro h
    obtain ⟨cs, hcs, rfl⟩ := Option.map_eq_some_iff.1 h
    rw [Text.ofString, String.toList_ofList]
    clear h
    induction t generalizing cs with
    | nil =>
      cases hcs
      rfl
    | cons p t ih =>
      cases p with
      | surrogate => cases hcs
      | scalar c =>
        rw [List.mapM_cons] at hcs
        obtain ⟨_, hc, hrest⟩ := Option.bind_eq_some_iff.1 hcs
        obtain ⟨later, hlater, hpure⟩ := Option.bind_eq_some_iff.1 hrest
        cases hc
        cases hpure
        rw [List.map_cons, ← ih later hlater]
  · rintro rfl
    exact Text.toString?_ofString s

/-- A value is taken as the integer that it counts as, and as no other. -/
theorem checkInteger_eq_ok_iff {v : Json} : checkInteger v = .ok i ↔ v.CountsAs i := by
  constructor
  · intro h
    cases v with
    | integer =>
      cases h
      exact .integer i
    | bool b =>
      cases h
      exact .bool b
    -- A number may fail at three places: it is not finite, not whole, or too large.
    | float x =>
      rw [checkInteger] at h
      cases hfinite : Binary.ofFloat? x with
      | none =>
        rw [hfinite] at h
        cases h
      | some b =>
        rw [hfinite] at h
        dsimp only at h
        cases hwhole : b.toInt? with
        | none =>
          rw [hwhole] at h
          cases h
        | some j =>
          rw [hwhole] at h
          dsimp only at h
          by_cases hsize : j.natAbs < 1 <<< 63
          · rw [if_pos hsize] at h
            cases h
            exact .float hfinite (Binary.toInt?_eq_some_iff.1 hwhole) hsize
          · rw [if_neg hsize] at h
            cases h
    | string t =>
      rw [checkInteger] at h
      cases ht : t.toString? with
      | none =>
        rw [ht] at h
        cases h
      | some s =>
        rw [ht] at h
        dsimp only at h
        obtain rfl := Text.toString?_eq_some_iff.1 ht
        cases hread : readWhole s.toList with
        | error e =>
          rw [hread] at h
          cases e <;> cases h
        | ok j =>
          rw [hread] at h
          cases h
          exact .string (readWhole_eq_ok_iff.1 hread)
    | null | array | object => cases h
  -- Every way to count as an integer leads through the same checks.
  · intro h
    cases h with
    | integer => rfl
    | bool => rfl
    | float hfinite hwhole hsize =>
      rw [checkInteger, hfinite]
      dsimp only
      rw [Binary.toInt?_eq_some_iff.2 hwhole]
      exact if_pos hsize
    | string h =>
      rw [checkInteger, Text.toString?_ofString]
      dsimp only
      rw [readWhole_eq_ok_iff.2 h]

end LetFun
