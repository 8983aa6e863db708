import LetFun.Text.Utf8
import LetFun.Proofs.Reader
/-!
# Text in files

Text of ASCII without carriage returns is what its bytes are read as (`decodeLines_encode`). Other
text is read with its line ends unified, and its parts are read as parts of what it is read as
(`unifyLineEnds_eq_append`).
-/

namespace LetFun.Utf8

variable {cs : List Char} {c : Char} {b : UInt8}

theorem lead?_of_lt (h : b.toNat < 0x80) : lead? b = some ⟨b.toNat, 0, 0, 0⟩ :=
  if_pos h

theorem utf8EncodeChar_of_lt (h : c.toNat < 0x80) :
    String.utf8EncodeChar c = [UInt8.ofNat c.toNat] :=
  if_pos (Nat.le_of_lt_succ h)

/-- Bytes below 0x80 are characters by themselves. -/
theorem decodeFrom_ascii (h : ∀ c ∈ cs, c.toNat < 0x80) (offset : Nat) :
    decodeFrom offset none (cs.flatMap String.utf8EncodeChar) = .ok cs := by
  induction cs generalizing offset with
  | nil => rfl
  | cons c cs ih =>
    rw [List.forall_mem_cons] at h
    have hbyte : (UInt8.ofNat c.toNat).toNat = c.toNat := by
      rw [UInt8.toNat_ofNat']
      omega
    rw [List.flatMap_cons, utf8EncodeChar_of_lt h.1, List.singleton_append, decodeFrom]
    simp only [lead?_of_lt (hbyte ▸ h.1), hbyte]
    rw [ih h.2, Char.ofNat_toNat]
    rfl

theorem unifyLineEnds_eq_self (h : '\r' ∉ cs) : unifyLineEnds cs = cs := by
  induction cs with
  | nil => rfl
  | cons c cs ih =>
    rw [List.mem_cons, not_or] at h
    rw [unifyLineEnds, ih h.2]
    · exact fun _ hc _ => h.1 hc.symm
    · exact fun hc => h.1 hc.symm

/-- Text of ASCII without carriage returns is read back from its bytes. -/
theorem decodeLines_encode {s : String} (h : ∀ c ∈ s.toList, c.toNat < 0x80 ∧ c ≠ '\r') :
    decodeLines (encode s) = .ok s := by
  have hreturn : '\r' ∉ s.toList := fun hc => (h _ hc).2 rfl
  rw [decodeLines, decode, encode, decodeFrom_ascii (fun c hc => (h c hc).1) 0]
  show Except.ok (String.ofList (unifyLineEnds (String.ofList s.toList).toList)) = _
  rw [String.ofList_toList, unifyLineEnds_eq_self hreturn, String.ofList_toList]

/-! ## Line ends -/

/-- The text of a file is what its bytes encode, with the line ends unified. -/
theorem decodeLines_eq_ok_iff {bytes : List UInt8} {source : String} :
    decodeLines bytes = .ok source ↔ ∃ text, decode bytes = .ok text ∧
      unifyLineEnds text.toList = source.toList := by
  unfold decodeLines
  rw [Except.map_eq_ok_iff]
  constructor
  · rintro ⟨text, htext, rfl⟩
    exact ⟨text, htext, String.toList_ofList.symm⟩
  · rintro ⟨text, htext, hsource⟩
    exact ⟨text, htext, by rw [hsource, String.ofList_toList]⟩

/-- What two parts of a text are read as is read from two parts of the text. -/
theorem unifyLineEnds_eq_append {left right : List Char} (h : unifyLineEnds cs = left ++ right) :
    ∃ l r, cs = l ++ r ∧ unifyLineEnds l = left ∧ unifyLineEnds r = right := by
  fun_induction unifyLineEnds cs generalizing left with
  | case1 =>
    obtain ⟨rfl, rfl⟩ := List.append_eq_nil_iff.1 h.symm
    exact ⟨[], [], rfl, rfl, rfl⟩
  -- A line end of two characters becomes one, so no split falls between them.
  | case2 rest ih =>
    rcases List.cons_eq_append_iff.1 h with ⟨rfl, rfl⟩ | ⟨left', rfl, hrest⟩
    · exact ⟨[], '\r' :: '\n' :: rest, rfl, rfl, rfl⟩
    · obtain ⟨l, r, rfl, rfl, rfl⟩ := ih hrest
      exact ⟨'\r' :: '\n' :: l, r, rfl, rfl, rfl⟩
  -- A lone carriage return stays alone on either side of the split.
  | case3 rest hrest' ih =>
    rcases List.cons_eq_append_iff.1 h with ⟨rfl, rfl⟩ | ⟨left', rfl, hrest⟩
    · refine ⟨[], '\r' :: rest, rfl, rfl, ?_⟩
      rw [unifyLineEnds]
      exact hrest'
    · obtain ⟨l, r, rfl, rfl, rfl⟩ := ih hrest
      refine ⟨'\r' :: l, r, rfl, ?_, rfl⟩
      rw [unifyLineEnds]
      intro l' hl
      exact hrest' (l' ++ r) (by rw [hl]; rfl)
  | case4 c rest hpair hreturn ih =>
    rcases List.cons_eq_append_iff.1 h with ⟨rfl, rfl⟩ | ⟨left', rfl, hrest⟩
    · refine ⟨[], c :: rest, rfl, rfl, ?_⟩
      rw [unifyLineEnds]
      · exact hpair
      · exact hreturn
    · obtain ⟨l, r, rfl, rfl, rfl⟩ := ih hrest
      refine ⟨c :: l, r, rfl, ?_, rfl⟩
      rw [unifyLineEnds]
      · intro l' hc hl
        exact hpair (l' ++ r) hc (by rw [hl]; rfl)
      · exact hreturn

/-- A text without line ends is not changed. -/
theorem eq_self_of_notMem (h : '\n' ∉ unifyLineEnds cs) : unifyLineEnds cs = cs := by
  fun_induction unifyLineEnds cs with
  | case1 => rfl
  | case2 => exact absurd List.mem_cons_self h
  | case3 => exact absurd List.mem_cons_self h
  | case4 c rest _ _ ih => rw [ih fun hmem => h (List.mem_cons_of_mem c hmem)]

/-- Only line ends of two characters make a text shorter. -/
theorem length_unifyLineEnds (h : ¬ ['\r', '\n'] <:+: cs) :
    (unifyLineEnds cs).length = cs.length := by
  fun_induction unifyLineEnds cs with
  | case1 => rfl
  | case2 rest => exact absurd (List.prefix_append _ rest).isInfix h
  | case3 rest _ ih | case4 c rest _ _ ih =>
    rw [List.length_cons, List.length_cons, ih fun hin => h (List.infix_cons hin)]

end LetFun.Utf8
