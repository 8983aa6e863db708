import LetFun.Proofs.Json.RoundTrip
/-!
# The characters of JSON text that was written

What holds of the characters of the strings and of the layout holds of the whole text
(`forall_mem_render`). So a value without floating-point numbers is written in the characters of
ASCII from the space to the tilde, whatever its strings hold, and in line feeds if the layout breaks
lines (`uses_of_mem_render`).
-/

namespace LetFun

def IsPrintableAscii (c : Char) : Prop :=
  ' ' ≤ c ∧ c ≤ '~'

instance (c : Char) : Decidable (IsPrintableAscii c) :=
  inferInstanceAs (Decidable (_ ∧ _))

theorem Hex.exists_of_mem_digits {width n : Nat} {c : Char} (h : c ∈ digits width n) :
    ∃ d < 16, c = Nat.digitChar d := by
  induction width generalizing n with
  | zero => cases h
  | succ width ih =>
    rw [digits, List.mem_append, List.mem_singleton] at h
    rcases h with h | rfl
    · exact ih h
    · exact ⟨n % 16, Nat.mod_lt n (by decide), rfl⟩

theorem Hex.isPrintableAscii_of_mem_digits {width n : Nat} {c : Char} (h : c ∈ digits width n) :
    IsPrintableAscii c := by
  have hdigit : ∀ d < 16, IsPrintableAscii (Nat.digitChar d) := by decide
  obtain ⟨d, hd, rfl⟩ := exists_of_mem_digits h
  exact hdigit d hd

theorem isPrintableAscii_of_isDigit {c : Char} (h : c.isDigit = true) : IsPrintableAscii c := by
  unfold Char.isDigit at h
  rw [Bool.and_eq_true, decide_eq_true_eq, decide_eq_true_eq] at h
  exact ⟨UInt32.le_trans (by decide : (32 : UInt32) ≤ 48) h.1,
    UInt32.le_trans h.2 (by decide : (57 : UInt32) ≤ 126)⟩

theorem isDigit_of_mem_toString {i : Int} {c : Char} (h : c ∈ (toString i).toList) :
    c = '-' ∨ c.isDigit = true := by
  rw [toList_toString, List.mem_append] at h
  rcases h with h | h
  · by_cases hi : i < 0
    · rw [if_pos hi, List.mem_singleton] at h
      exact .inl h
    · rw [if_neg hi] at h
      cases h
  · exact .inr (isDigit_of_mem_toDigits h)

theorem isPrintableAscii_of_mem_toString {i : Int} {c : Char} (h : c ∈ (toString i).toList) :
    IsPrintableAscii c := by
  rcases isDigit_of_mem_toString h with rfl | h
  · decide
  · exact isPrintableAscii_of_isDigit h

namespace Json

variable {layout : Layout} {depth room : Nat} {cs ds rest : List Char} {c : Char}

/-! ## Strings -/

theorem isPrintableAscii_of_escaped? {plain : Char} (h : escaped? c = some plain) :
    IsPrintableAscii c := by
  unfold escaped? at h
  split at h
  case h_9 => cases h
  all_goals decide

theorem isPrintableAscii_of_mem_unitEscape {n : Nat} (h : c ∈ unitEscape n) :
    IsPrintableAscii c := by
  rw [unitEscape, List.mem_cons, List.mem_cons] at h
  rcases h with rfl | rfl | h
  · decide
  · decide
  · exact Hex.isPrintableAscii_of_mem_digits h

/-- Whatever a code point is, it is written in printable ASCII. -/
theorem isPrintableAscii_of_mem_writePoint {p : CodePoint} (h : c ∈ writePoint p) :
    IsPrintableAscii c := by
  rcases writePoint_cases p with ⟨d, -, hspace, htilde, -, -, hp⟩ | ⟨d, e, -, -, he, hp⟩ | hp
  · rw [hp, List.mem_singleton] at h
    rw [h]
    exact ⟨hspace, htilde⟩
  · rw [hp, List.mem_cons, List.mem_singleton] at h
    rcases h with rfl | rfl
    · decide
    · exact isPrintableAscii_of_escaped? he
  · rw [hp, List.mem_flatMap] at h
    obtain ⟨u, -, hu⟩ := h
    exact isPrintableAscii_of_mem_unitEscape hu

/-! ## Values -/

/-- A value without floating-point numbers whose strings and keys all satisfy `Q`. -/
inductive AllTexts (Q : Text → Prop) : Json → Prop where
  | null : AllTexts Q .null
  | bool (b : Bool) : AllTexts Q (.bool b)
  | integer (i : Int) : AllTexts Q (.integer i)
  | string {t : Text} (ht : Q t) : AllTexts Q (.string t)
  | array {items : List Json} (hitems : ∀ v ∈ items, AllTexts Q v) : AllTexts Q (.array items)
  | object {members : List (Text × Json)} (hkeys : ∀ m ∈ members, Q m.1)
      (hvalues : ∀ m ∈ members, AllTexts Q m.2) : AllTexts Q (.object members)

/-- A value that is read back has no floating-point numbers. -/
theorem Readable.allTexts {v : Json} (hv : Readable room v) : AllTexts (fun _ => True) v := by
  induction hv with
  | null => exact .null
  | bool b => exact .bool b
  | integer _ => exact .integer _
  | string s => exact .string trivial
  | array _ ih => exact .array ih
  | object _ _ _ ih => exact .object (fun _ _ => trivial) ih

def Adds (P : Char → Prop) (cs rest : List Char) : Prop :=
  ∀ c ∈ cs, P c ∨ c ∈ rest

namespace Adds

variable {P : Char → Prop}

theorem refl (P : Char → Prop) (rest : List Char) : Adds P rest rest :=
  fun _ h => .inr h

theorem trans (h : Adds P cs ds) (h' : Adds P ds rest) : Adds P cs rest := by
  intro c hc
  rcases h c hc with hsatisfied | hmem
  · exact .inl hsatisfied
  · exact h' c hmem

theorem cons (hc : P c) (h : Adds P cs rest) : Adds P (c :: cs) rest :=
  List.forall_mem_cons.2 ⟨.inl hc, h⟩

theorem append (hds : ∀ c ∈ ds, P c) (h : Adds P cs rest) : Adds P (ds ++ cs) rest :=
  List.forall_mem_append.2 ⟨fun c hc => .inl (hds c hc), h⟩

end Adds

/-- The characters that are written in a layout satisfy `P` if the strings and keys satisfy `Q`. -/
structure Layout.Covers (layout : Layout) (Q : Text → Prop) (P : Char → Prop) : Prop where
  plain : ∀ c, IsPrintableAscii c → c ≠ ' ' → P c
  texts : ∀ t, Q t → ∀ p ∈ t, ∀ c ∈ writePoint p, P c
  lineBreak : ∀ depth, ∀ c ∈ layout.lineBreak depth, P c
  colon : ∀ c ∈ layout.colon, P c

section Covers

variable {Q : Text → Prop} {P : Char → Prop} (h : layout.Covers Q P)
include h

/-- A string adds the characters of its code points and quotes. -/
theorem adds_writeString {t : Text} (ht : Q t) (rest : List Char) :
    Adds P (writeString t rest) rest := by
  have hquote : P '\x22' := h.plain _ (by decide) (by decide)
  apply Adds.cons hquote
  apply Adds.append
  · intro c hc
    obtain ⟨p, hp, hmem⟩ := List.mem_flatMap.1 hc
    exact h.texts t ht p hp c hmem
  · exact .cons hquote (.refl P rest)

theorem adds_writeItems {items : List Json}
    (hitems : ∀ v ∈ items, ∀ rest, Adds P (write layout depth v rest) rest) :
    Adds P (writeItems layout depth items rest) rest := by
  induction items with
  | nil => exact .refl P rest
  | cons item items ih =>
    rw [List.forall_mem_cons] at hitems
    apply Adds.cons (h.plain _ (by decide) (by decide))
    apply Adds.append (h.lineBreak depth)
    exact (hitems.1 _).trans (ih hitems.2)

theorem adds_writeMember {m : Text × Json} (hkey : Q m.1)
    (hvalue : ∀ rest, Adds P (write layout depth m.2 rest) rest) :
    Adds P (layout.lineBreak depth ++
      writeString m.1 (layout.colon ++ write layout depth m.2 rest)) rest := by
  apply Adds.append (h.lineBreak depth)
  apply (adds_writeString h hkey _).trans
  apply Adds.append h.colon
  exact hvalue rest

theorem adds_writeMembers {members : List (Text × Json)} (hkeys : ∀ m ∈ members, Q m.1)
    (hvalues : ∀ m ∈ members, ∀ rest, Adds P (write layout depth m.2 rest) rest) :
    Adds P (writeMembers layout depth members rest) rest := by
  induction members with
  | nil => exact .refl P rest
  | cons m members ih =>
    rw [List.forall_mem_cons] at hkeys hvalues
    apply Adds.cons (h.plain _ (by decide) (by decide))
    exact (adds_writeMember h hkeys.1 hvalues.1).trans (ih hkeys.2 hvalues.2)

-- What closes an array or an object on a line of its own.
theorem adds_close (hc : IsPrintableAscii c ∧ c ≠ ' ') :
    Adds P (layout.lineBreak depth ++ c :: rest) rest :=
  .append (h.lineBreak depth) (.cons (h.plain c hc.1 hc.2) (.refl P rest))

theorem adds_word {word : List Char}
    (hword : ∀ c ∈ word, decide (IsPrintableAscii c ∧ c ≠ ' ') = true) (rest : List Char) :
    Adds P (word ++ rest) rest := by
  refine .append (fun c hc => ?_) (.refl P rest)
  obtain ⟨hprintable, hspace⟩ := of_decide_eq_true (hword c hc)
  exact h.plain c hprintable hspace

theorem adds_toString (i : Int) (rest : List Char) : Adds P ((toString i).toList ++ rest) rest := by
  refine adds_word h (fun c hc => decide_eq_true ⟨isPrintableAscii_of_mem_toString hc, ?_⟩) rest
  rintro rfl
  rcases isDigit_of_mem_toString hc with hminus | hdigit
  · exact absurd hminus (by decide)
  · exact absurd hdigit (by decide)

/-- The text of a value consists of characters of its strings and of the layout. -/
theorem adds_write {v : Json} (hv : AllTexts Q v) (depth : Nat) (rest : List Char) :
    Adds P (write layout depth v rest) rest := by
  induction hv generalizing depth rest with
  | null => exact adds_word h (List.all_eq_true.1 (by decide)) rest
  | bool b => cases b <;> exact adds_word h (List.all_eq_true.1 (by decide)) rest
  | integer i => exact adds_toString h i rest
  | string ht => exact adds_writeString h ht rest
  | @array items _ ih =>
    cases items with
    | nil => exact adds_word h (List.all_eq_true.1 (by decide : ['[', ']'].all _ = true)) rest
    | cons item items =>
      rw [List.forall_mem_cons] at ih
      -- From the opening bracket on, the parts add their characters one after the other.
      apply Adds.cons (h.plain _ (by decide) (by decide))
      apply Adds.append (h.lineBreak (depth + 1))
      apply (ih.1 (depth + 1) _).trans
      apply (adds_writeItems h fun v hv => ih.2 v hv (depth + 1)).trans
      exact adds_close h (by decide)
  | @object members hkeys _ ih =>
    cases members with
    | nil =>
      exact adds_word h (List.all_eq_true.1 (by decide : ['\x7b', '\x7d'].all _ = true)) rest
    | cons m members =>
      rw [List.forall_mem_cons] at hkeys ih
      apply Adds.cons (h.plain _ (by decide) (by decide))
      apply (adds_writeMember h hkeys.1 (ih.1 (depth + 1))).trans
      apply (adds_writeMembers h hkeys.2 fun m' hm => ih.2 m' hm (depth + 1)).trans
      exact adds_close h (by decide)

/-- What a layout covers holds of the characters of a whole text. -/
theorem forall_mem_render {v : Json} (hv : AllTexts Q v) : ∀ c ∈ (render layout v).toList, P c := by
  intro c hc
  rw [render, String.toList_ofList] at hc
  rcases adds_write h hv 0 [] c hc with hsatisfied | hmem
  · exact hsatisfied
  · cases hmem

end Covers

/-! ## Characters -/

def Layout.Uses (layout : Layout) (c : Char) : Prop :=
  IsPrintableAscii c ∨ layout ≠ .compact ∧ c = '\n'

theorem uses_of_mem_lineBreak (h : c ∈ layout.lineBreak depth) : layout.Uses c := by
  cases layout with
  | compact => cases h
  | indented width =>
    rcases List.mem_cons.1 h with rfl | h
    · exact .inr ⟨fun h => (nomatch h), rfl⟩
    · rw [List.eq_of_mem_replicate h]
      exact .inl (by decide)

theorem uses_of_mem_colon (h : c ∈ layout.colon) : layout.Uses c := by
  cases layout with
  | compact =>
    rw [List.mem_singleton.1 h]
    exact .inl (by decide)
  | indented width =>
    rcases List.mem_cons.1 h with rfl | h
    · exact .inl (by decide)
    · rw [List.mem_singleton.1 h]
      exact .inl (by decide)

/-- Every layout keeps to its characters. -/
theorem covers_uses (layout : Layout) : layout.Covers (fun _ => True) layout.Uses :=
  ⟨fun _ hc _ => .inl hc, fun _ _ _ _ _ hc => .inl (isPrintableAscii_of_mem_writePoint hc),
    fun _ _ => uses_of_mem_lineBreak, fun _ => uses_of_mem_colon⟩

/-- A value is written in the characters of the layout. -/
theorem uses_of_mem_render {v : Json} (hv : Readable room v)
    (h : c ∈ (render layout v).toList) : layout.Uses c :=
  forall_mem_render (covers_uses layout) hv.allTexts c h

end Json

end LetFun
