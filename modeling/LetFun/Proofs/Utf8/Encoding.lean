import LetFun.Proofs.Utf8
/-!
# What is UTF-8

Bytes are read as a text exactly if they are the encoding of that text (`decode_eq_ok_iff`). Bytes
that are refused are so at the first place from which on they start with no character
(`exists_of_decode_error`).
-/

namespace LetFun.Utf8

variable {b x y z w : UInt8} {bytes tail rest : List UInt8} {cs : List Char} {c : Char}
  {e : DecodeError} {lead : Lead} {p : Unfinished} {offset n : Nat}

/-! ## The bytes of a character -/

/-- What the first byte of a character says, by the number of bytes of the character. The bounds on
the second byte leave out numbers that have a shorter encoding or none. -/
inductive Leads (b : UInt8) : Lead → Prop where
  | one (h : b.toNat < 0x80) : Leads b ⟨b.toNat, 0, 0, 0⟩
  | two (hlow : 0xc2 ≤ b.toNat) (hhigh : b.toNat < 0xe0) : Leads b ⟨b.toNat - 0xc0, 1, 0x80, 0xbf⟩
  | three (hlow : 0xe0 ≤ b.toNat) (hhigh : b.toNat < 0xf0) :
    Leads b ⟨b.toNat - 0xe0, 2, if b.toNat = 0xe0 then 0xa0 else 0x80,
      if b.toNat = 0xed then 0x9f else 0xbf⟩
  | four (hlow : 0xf0 ≤ b.toNat) (hhigh : b.toNat < 0xf5) :
    Leads b ⟨b.toNat - 0xf0, 3, if b.toNat = 0xf0 then 0x90 else 0x80,
      if b.toNat = 0xf4 then 0x8f else 0xbf⟩

theorem Leads.lead?_eq (h : Leads b lead) : lead? b = some lead := by
  unfold lead?
  cases h with
  | one h => exact if_pos h
  | two hlow hhigh =>
    have hpayload : b.toNat % 0x20 = b.toNat - 0xc0 := by omega
    rw [if_neg (by omega), if_neg (by omega), if_pos hhigh, hpayload]
  | three hlow hhigh => grind
  | four hlow hhigh => grind

/-- First bytes are told apart by their values. -/
theorem lead?_eq_some_iff : lead? b = some lead ↔ Leads b lead := by
  refine ⟨fun h => ?_, Leads.lead?_eq⟩
  suffices hleads : ∃ lead', Leads b lead' by
    obtain ⟨lead', hlead'⟩ := hleads
    rw [hlead'.lead?_eq] at h
    cases h
    exact hlead'
  by_cases hone : b.toNat < 0x80
  · exact ⟨_, .one hone⟩
  by_cases hthree : 0xe0 ≤ b.toNat
  · by_cases hfour : 0xf0 ≤ b.toNat
    · by_cases hhigh : b.toNat < 0xf5
      · exact ⟨_, .four hfour hhigh⟩
      · unfold lead? at h
        grind
    · exact ⟨_, .three hthree (by omega)⟩
  · by_cases hlow : 0xc2 ≤ b.toNat
    · exact ⟨_, .two hlow (by omega)⟩
    · unfold lead? at h
      grind

def Continues (low high : Nat) : List UInt8 → Prop
  | [] => True
  | b :: bs => (low ≤ b.toNat ∧ b.toNat ≤ high) ∧ Continues 0x80 0xbf bs

def codeOf (payload : Nat) (tail : List UInt8) : Nat :=
  tail.foldl (fun n b => n * 64 + b.toNat % 64) payload

structure IsCharacter (b : UInt8) (tail : List UInt8) (lead : Lead) : Prop where
  leads : Leads b lead
  length : tail.length = lead.owed
  continues : Continues lead.low lead.high tail

theorem ofNat_eq_of_toNat (h : b.toNat = n) : UInt8.ofNat n = b := by
  rw [← h, UInt8.ofNat_toNat]

theorem toNat_charOfNat (h : n.isValidChar) : (Char.ofNat n).val.toNat = n := by
  rw [Char.ofNat, dif_pos h]
  rfl

/-- Characters below 0x800 have two bytes, if not one. -/
theorem utf8EncodeChar_two (hlow : 0x80 ≤ n) (hhigh : n < 0x800) (hx : x.toNat = 0xc0 + n / 64)
    (hy : y.toNat = 0x80 + n % 64) : String.utf8EncodeChar (Char.ofNat n) = [x, y] := by
  have hvalid : n.isValidChar := .inl (by omega)
  unfold String.utf8EncodeChar
  rw [toNat_charOfNat hvalid, if_neg (by omega), if_pos (by omega)]
  rw [ofNat_eq_of_toNat (b := x) (by omega), ofNat_eq_of_toNat (b := y) (by omega)]

theorem utf8EncodeChar_three (hlow : 0x800 ≤ n) (hhigh : n < 0x10000) (hvalid : n.isValidChar)
    (hx : x.toNat = 0xe0 + n / 4096) (hy : y.toNat = 0x80 + n / 64 % 64)
    (hz : z.toNat = 0x80 + n % 64) : String.utf8EncodeChar (Char.ofNat n) = [x, y, z] := by
  unfold String.utf8EncodeChar
  rw [toNat_charOfNat hvalid, if_neg (by omega), if_neg (by omega), if_pos (by omega)]
  rw [ofNat_eq_of_toNat (b := x) (by omega), ofNat_eq_of_toNat (b := y) (by omega),
    ofNat_eq_of_toNat (b := z) (by omega)]

theorem utf8EncodeChar_four (hlow : 0x10000 ≤ n) (hvalid : n.isValidChar)
    (hx : x.toNat = 0xf0 + n / 262144) (hy : y.toNat = 0x80 + n / 4096 % 64)
    (hz : z.toNat = 0x80 + n / 64 % 64) (hw : w.toNat = 0x80 + n % 64) :
    String.utf8EncodeChar (Char.ofNat n) = [x, y, z, w] := by
  have hhigh : n < 0x110000 := by
    rcases hvalid with hlt | ⟨-, hlt⟩ <;> omega
  unfold String.utf8EncodeChar
  rw [toNat_charOfNat hvalid, if_neg (by omega), if_neg (by omega), if_neg (by omega)]
  rw [ofNat_eq_of_toNat (b := x) (by omega), ofNat_eq_of_toNat (b := y) (by omega),
    ofNat_eq_of_toNat (b := z) (by omega), ofNat_eq_of_toNat (b := w) (by omega)]

/-- The bytes of a character are the encoding of the character with their number. -/
theorem IsCharacter.utf8EncodeChar_eq (h : IsCharacter b tail lead) :
    String.utf8EncodeChar (Char.ofNat (codeOf lead.payload tail)) = b :: tail := by
  obtain ⟨hleads, hlength, hcontinues⟩ := h
  cases hleads with
  | one h =>
    obtain rfl := List.length_eq_zero_iff.1 hlength
    show String.utf8EncodeChar (Char.ofNat b.toNat) = _
    have hn := toNat_charOfNat (n := b.toNat) (.inl (by omega))
    rw [utf8EncodeChar_of_lt (by rw [Char.toNat, hn]; exact h), Char.toNat, hn, UInt8.ofNat_toNat]
  | two hlow hhigh =>
    obtain ⟨y, rfl⟩ := List.length_eq_one_iff.1 hlength
    obtain ⟨hy, -⟩ := hcontinues
    show String.utf8EncodeChar (Char.ofNat ((b.toNat - 0xc0) * 64 + y.toNat % 64)) = _
    dsimp only at hy
    apply utf8EncodeChar_two <;> omega
  | three hlow hhigh =>
    obtain ⟨y, ys, rfl⟩ := List.exists_cons_of_length_eq_add_one hlength
    obtain ⟨z, rfl⟩ := List.length_eq_one_iff.1 (Nat.succ.inj hlength)
    obtain ⟨hy, hz, -⟩ := hcontinues
    dsimp only at hy
    -- The bounds on the second byte leave out shorter encodings and surrogates.
    have hsecond : 0x80 ≤ y.toNat ∧ y.toNat ≤ 0xbf ∧ (b.toNat = 0xe0 → 0xa0 ≤ y.toNat) ∧
        (b.toNat = 0xed → y.toNat ≤ 0x9f) := by grind
    clear hlength hy
    show String.utf8EncodeChar (Char.ofNat
      (((b.toNat - 0xe0) * 64 + y.toNat % 64) * 64 + z.toNat % 64)) = _
    apply utf8EncodeChar_three
    case hvalid => unfold Nat.isValidChar; omega
    all_goals omega
  | four hlow hhigh =>
    obtain ⟨y, ys, rfl⟩ := List.exists_cons_of_length_eq_add_one hlength
    obtain ⟨z, zs, rfl⟩ := List.exists_cons_of_length_eq_add_one (Nat.succ.inj hlength)
    obtain ⟨w, rfl⟩ := List.length_eq_one_iff.1 (Nat.succ.inj (Nat.succ.inj hlength))
    obtain ⟨hy, hz, hw, -⟩ := hcontinues
    dsimp only at hy
    have hsecond : 0x80 ≤ y.toNat ∧ y.toNat ≤ 0xbf ∧ (b.toNat = 0xf0 → 0x90 ≤ y.toNat) ∧
        (b.toNat = 0xf4 → y.toNat ≤ 0x8f) := by grind
    clear hlength hy
    show String.utf8EncodeChar (Char.ofNat
      ((((b.toNat - 0xf0) * 64 + y.toNat % 64) * 64 + z.toNat % 64) * 64 + w.toNat % 64)) = _
    apply utf8EncodeChar_four
    case hvalid => unfold Nat.isValidChar; omega
    all_goals omega

-- A byte with a given number.
theorem exists_toNat_eq (h : n < 0x100) : ∃ b : UInt8, b.toNat = n :=
  ⟨UInt8.ofNat n, by rw [UInt8.toNat_ofNat']; omega⟩

/-- Every number of a character has the bytes of one. -/
theorem exists_isCharacter (h : n.isValidChar) :
    ∃ b tail lead, IsCharacter b tail lead ∧ codeOf lead.payload tail = n := by
  have hmax : n < 0x110000 := by
    rcases h with hlt | ⟨-, hlt⟩ <;> omega
  unfold Nat.isValidChar at h
  -- The number of bytes depends on the size of the number; each byte takes six bits of it.
  by_cases hone : n < 0x80
  · obtain ⟨b, hb⟩ := exists_toNat_eq (n := n) (by omega)
    exact ⟨b, [], _, ⟨.one (by omega), rfl, trivial⟩, hb⟩
  by_cases htwo : n < 0x800
  · obtain ⟨b, hb⟩ := exists_toNat_eq (n := 0xc0 + n / 64) (by omega)
    obtain ⟨y, hy⟩ := exists_toNat_eq (n := 0x80 + n % 64) (by omega)
    have hsecond : 0x80 ≤ y.toNat ∧ y.toNat ≤ 0xbf := by omega
    refine ⟨b, [y], _, ⟨.two (by omega) (by omega), rfl, hsecond, trivial⟩, ?_⟩
    show (b.toNat - 0xc0) * 64 + y.toNat % 64 = n
    omega
  by_cases hthree : n < 0x10000
  · obtain ⟨b, hb⟩ := exists_toNat_eq (n := 0xe0 + n / 4096) (by omega)
    obtain ⟨y, hy⟩ := exists_toNat_eq (n := 0x80 + n / 64 % 64) (by omega)
    obtain ⟨z, hz⟩ := exists_toNat_eq (n := 0x80 + n % 64) (by omega)
    have hsecond : (if b.toNat = 0xe0 then 0xa0 else 0x80) ≤ y.toNat ∧
        y.toNat ≤ if b.toNat = 0xed then 0x9f else 0xbf := by
      split <;> split <;> omega
    refine ⟨b, [y, z], _, ⟨.three (by omega) (by omega), rfl, hsecond, ⟨by omega, by omega⟩,
      trivial⟩, ?_⟩
    show ((b.toNat - 0xe0) * 64 + y.toNat % 64) * 64 + z.toNat % 64 = n
    omega
  · obtain ⟨b, hb⟩ := exists_toNat_eq (n := 0xf0 + n / 262144) (by omega)
    obtain ⟨y, hy⟩ := exists_toNat_eq (n := 0x80 + n / 4096 % 64) (by omega)
    obtain ⟨z, hz⟩ := exists_toNat_eq (n := 0x80 + n / 64 % 64) (by omega)
    obtain ⟨w, hw⟩ := exists_toNat_eq (n := 0x80 + n % 64) (by omega)
    have hsecond : (if b.toNat = 0xf0 then 0x90 else 0x80) ≤ y.toNat ∧
        y.toNat ≤ if b.toNat = 0xf4 then 0x8f else 0xbf := by
      split <;> split <;> omega
    refine ⟨b, [y, z, w], _, ⟨.four (by omega) (by omega), rfl, hsecond, ⟨by omega, by omega⟩,
      ⟨by omega, by omega⟩, trivial⟩, ?_⟩
    show (((b.toNat - 0xf0) * 64 + y.toNat % 64) * 64 + z.toNat % 64) * 64 + w.toNat % 64 = n
    omega

/-- Every character is encoded by a first byte and as many others as it asks for. -/
theorem exists_utf8EncodeChar_eq (c : Char) : ∃ b tail lead, IsCharacter b tail lead ∧
    String.utf8EncodeChar c = b :: tail ∧ Char.ofNat (codeOf lead.payload tail) = c := by
  obtain ⟨b, tail, lead, h, hcode⟩ := exists_isCharacter c.valid
  have hc : Char.ofNat (codeOf lead.payload tail) = c := by
    rw [hcode]
    exact Char.ofNat_toNat c
  exact ⟨b, tail, lead, h, hc ▸ h.utf8EncodeChar_eq, hc⟩

/-! ## Reading one character -/

-- The bytes that a character has left finish it.
theorem decodeFrom_continues (hlength : tail.length = p.owed) (howed : p.owed ≠ 0)
    (h : Continues p.low p.high tail) :
    decodeFrom offset (some p) (tail ++ rest) =
      (decodeFrom (offset + tail.length) none rest).map
        (Char.ofNat (codeOf p.payload tail) :: ·) := by
  induction tail generalizing offset p with
  | nil => exact absurd hlength.symm howed
  | cons b tail ih =>
    obtain ⟨hb, htail⟩ := h
    rw [List.cons_append, decodeFrom]
    simp only [if_pos hb]
    by_cases hlast : p.owed = 1
    · obtain rfl : tail = [] := by
        apply List.length_eq_zero_iff.1
        rw [List.length_cons] at hlength
        omega
      rw [if_pos hlast]
      rfl
    · rw [List.length_cons] at hlength
      rw [if_neg hlast, ih (by dsimp only; omega) (by dsimp only; omega) htail]
      rw [List.length_cons, Nat.add_assoc, Nat.add_comm 1]
      rfl

-- Bytes that do not finish a character are to blame from its first byte on.
theorem decodeFrom_not_continues (howed : p.owed ≠ 0) (hcount : p.count ≤ offset)
    (h : ∀ tail rest, bytes = tail ++ rest → tail.length = p.owed → ¬ Continues p.low p.high tail) :
    ∃ count reason,
      decodeFrom offset (some p) bytes = .error ⟨offset - p.count, p.first, count, reason⟩ := by
  induction bytes generalizing offset p with
  | nil => exact ⟨_, _, rfl⟩
  | cons b bytes ih =>
    rw [decodeFrom]
    by_cases hb : p.low ≤ b.toNat ∧ b.toNat ≤ p.high
    -- The bytes may go on for a while, but if this one were the last, they would be complete.
    · have hlast : p.owed ≠ 1 := fun hlast => h [b] bytes rfl hlast.symm ⟨hb, trivial⟩
      simp only [if_pos hb, if_neg hlast]
      rw [← Nat.add_sub_add_right offset 1]
      apply ih
      · show p.owed - 1 ≠ 0
        omega
      · exact Nat.add_le_add_right hcount 1
      · intro tail rest hbytes hlength hcontinues
        apply h (b :: tail) rest
        · rw [hbytes]
          rfl
        · show tail.length + 1 = p.owed
          dsimp only at hlength
          omega
        · exact ⟨hb, hcontinues⟩
    · simp only [if_neg hb]
      exact ⟨_, _, rfl⟩

/-- The encoding of a character in front of bytes is read as the character. -/
theorem decodeFrom_utf8EncodeChar (c : Char) (rest : List UInt8) (offset : Nat) :
    decodeFrom offset none (String.utf8EncodeChar c ++ rest) =
      (decodeFrom (offset + (String.utf8EncodeChar c).length) none rest).map (c :: ·) := by
  obtain ⟨b, tail, ⟨payload, owed, low, high⟩, ⟨hleads, hlength, hcontinues⟩, hc, hcode⟩ :=
    exists_utf8EncodeChar_eq c
  rw [hc, List.cons_append, decodeFrom, hleads.lead?_eq, List.length_cons]
  dsimp only at hlength hcontinues hcode
  cases owed with
  | zero =>
    obtain rfl := List.length_eq_zero_iff.1 hlength
    rw [← hcode]
    rfl
  | succ owed =>
    show decodeFrom (offset + 1) (some ⟨b, 1, payload, owed + 1, low, high⟩) (tail ++ rest) = _
    rw [decodeFrom_continues hlength (Nat.succ_ne_zero owed) hcontinues]
    rw [← hcode, Nat.add_assoc, Nat.add_comm 1]

/-- Bytes that start with the encoding of no character are refused at the first of them. -/
theorem exists_decodeFrom_error (hne : bytes ≠ [])
    (h : ∀ c rest, bytes ≠ String.utf8EncodeChar c ++ rest) (offset : Nat) :
    ∃ e, decodeFrom offset none bytes = .error e ∧ e.offset = offset ∧
      bytes.head? = some e.byte := by
  obtain ⟨b, bytes, rfl⟩ := List.exists_cons_of_ne_nil hne
  rw [decodeFrom]
  cases hlead : lead? b with
  | none => exact ⟨_, rfl, rfl, rfl⟩
  | some lead =>
    have hleads := lead?_eq_some_iff.1 hlead
    -- The first byte asks for others, and if they came it would start a character.
    have hfinish : ∀ tail rest, bytes = tail ++ rest → tail.length = lead.owed →
        ¬ Continues lead.low lead.high tail := by
      intro tail rest hbytes hlength hcontinues
      apply h (Char.ofNat (codeOf lead.payload tail)) rest
      rw [IsCharacter.utf8EncodeChar_eq ⟨hleads, hlength, hcontinues⟩, hbytes]
      rfl
    obtain ⟨payload, owed, low, high⟩ := lead
    cases owed with
    | zero => exact absurd trivial (hfinish [] bytes rfl rfl)
    | succ owed =>
      obtain ⟨count, reason, herror⟩ := decodeFrom_not_continues
        (p := ⟨b, 1, payload, owed + 1, low, high⟩) (Nat.succ_ne_zero owed)
        (Nat.le_add_left 1 offset) hfinish
      exact ⟨_, herror, rfl, rfl⟩

/-! ## Reading texts -/

theorem utf8EncodeChar_ne_nil (c : Char) : String.utf8EncodeChar c ≠ [] := by
  obtain ⟨b, tail, lead, -, hc, -⟩ := exists_utf8EncodeChar_eq c
  rw [hc]
  exact List.cons_ne_nil b tail

/-- A text is read back from the bytes that encode it. -/
theorem decodeFrom_flatMap (cs : List Char) (offset : Nat) :
    decodeFrom offset none (cs.flatMap String.utf8EncodeChar) = .ok cs := by
  induction cs generalizing offset with
  | nil => rfl
  | cons c cs ih =>
    rw [List.flatMap_cons, decodeFrom_utf8EncodeChar, ih]
    rfl

/-- Bytes are a text, or they are refused behind a text, where they start with no character. -/
theorem decodeFrom_outcome (bytes : List UInt8) (offset : Nat) :
    (∃ cs : List Char, bytes = cs.flatMap String.utf8EncodeChar ∧
        decodeFrom offset none bytes = .ok cs) ∨
      ∃ (cs : List Char) (tail : List UInt8) (e : DecodeError),
        bytes = cs.flatMap String.utf8EncodeChar ++ tail ∧
        decodeFrom offset none bytes = .error e ∧
        e.offset = offset + (cs.flatMap String.utf8EncodeChar).length ∧
        tail.head? = some e.byte ∧ ∀ c rest, tail ≠ String.utf8EncodeChar c ++ rest := by
  by_cases hnil : bytes = []
  · subst hnil
    exact .inl ⟨[], rfl, rfl⟩
  -- The induction takes one character at a time, as long as the bytes start with one.
  by_cases hstart : ∃ c rest, bytes = String.utf8EncodeChar c ++ rest
  · obtain ⟨c, rest, rfl⟩ := hstart
    have hshort : rest.length < (String.utf8EncodeChar c ++ rest).length := by
      have := List.length_pos_iff.2 (utf8EncodeChar_ne_nil c)
      rw [List.length_append]
      omega
    rw [decodeFrom_utf8EncodeChar]
    rcases decodeFrom_outcome rest (offset + (String.utf8EncodeChar c).length) with
      ⟨cs, hrest, hok⟩ | ⟨cs, tail, e, hrest, herror, hoffset, hhead, hnone⟩
    · refine .inl ⟨c :: cs, ?_, ?_⟩
      · rw [List.flatMap_cons, hrest]
      · rw [hok]
        rfl
    · refine .inr ⟨c :: cs, tail, e, ?_, ?_, ?_, hhead, hnone⟩
      · rw [List.flatMap_cons, hrest, List.append_assoc]
      · rw [herror]
        rfl
      · rw [hoffset, List.flatMap_cons, List.length_append, Nat.add_assoc]
  · have hnone : ∀ c rest, bytes ≠ String.utf8EncodeChar c ++ rest :=
      fun c rest hbytes => hstart ⟨c, rest, hbytes⟩
    obtain ⟨e, herror, hoffset, hhead⟩ := exists_decodeFrom_error hnil hnone offset
    exact .inr ⟨[], bytes, e, rfl, herror, hoffset, hhead, hnone⟩
termination_by bytes.length

/-- Bytes are read as a text exactly if they are its encoding. -/
theorem decode_eq_ok_iff {s : String} : decode bytes = .ok s ↔ encode s = bytes := by
  unfold decode encode
  rw [Except.map_eq_ok_iff]
  constructor
  · rintro ⟨cs, hcs, rfl⟩
    rw [String.toList_ofList]
    rcases decodeFrom_outcome bytes 0 with ⟨cs', hbytes, hok⟩ | ⟨_, _, e, -, herror, -⟩
    · rw [hcs] at hok
      cases hok
      exact hbytes.symm
    · rw [hcs] at herror
      cases herror
  · rintro rfl
    exact ⟨s.toList, decodeFrom_flatMap s.toList 0, String.ofList_toList⟩

/-- An error points to the first of some bytes that stand behind a text and start with no
character. -/
def DecodeError.Locates (e : DecodeError) (bytes : List UInt8) : Prop :=
  ∃ before tail, bytes = encode before ++ tail ∧ e.offset = (encode before).length ∧
    tail.head? = some e.byte ∧ ∀ c rest, tail ≠ String.utf8EncodeChar c ++ rest

/-- An error points to the first bytes that are no character. -/
theorem locates_of_decode (h : decode bytes = .error e) : e.Locates bytes := by
  unfold decode at h
  rcases decodeFrom_outcome bytes 0 with ⟨cs, -, hok⟩ | ⟨cs, tail, e', hbytes, herror, hplace⟩
  · rw [hok] at h
    cases h
  · rw [herror] at h
    cases h
    refine ⟨String.ofList cs, tail, ?_⟩
    rw [encode, String.toList_ofList, ← Nat.zero_add (cs.flatMap String.utf8EncodeChar).length]
    exact ⟨hbytes, hplace⟩

end LetFun.Utf8
