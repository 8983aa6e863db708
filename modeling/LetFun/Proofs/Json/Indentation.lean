import LetFun.Proofs.Json.Characters
import LetFun.Proofs.Json.Quoting
/-!
# What indentation adds to JSON text

The text of a value in any layout is its compact text with spaces and line feeds that stand outside
of strings (`withoutBlanks_render`). The compact text has no space but for those in the strings of
the value (`space_notMem_render`).
-/

namespace LetFun.Json

variable {layout : Layout} {depth room : Nat} {cs ds rest : List Char} {c : Char}

def isBlank (m : Char × Quoting) : Bool :=
  m.2 = .outside && (m.1 = ' ' || m.1 = '\n')

/-- The text without the spaces and the line feeds that stand outside of its strings. -/
def withoutBlanks (text : List Char) : List Char :=
  ((marks .outside text).filter fun m => !isBlank m).map Prod.fst

/-! ## Pieces of text -/

/-- Blanks are taken from two texts one by one where the first ends outside of strings. -/
theorem withoutBlanks_append (h : Quoting.outside.after cs = .outside) :
    withoutBlanks (cs ++ ds) = withoutBlanks cs ++ withoutBlanks ds := by
  rw [withoutBlanks, marks_append, h, List.filter_append, List.map_append]
  rfl

/-- A piece of text without blanks: no string of it ends elsewhere. -/
structure IsSolid (cs : List Char) : Prop where
  solid : ∀ m ∈ marks .outside cs, isBlank m = false
  after : Quoting.outside.after cs = .outside

/-- A solid piece stays as it is. -/
theorem IsSolid.append (h : IsSolid cs) (ds : List Char) :
    withoutBlanks (cs ++ ds) = cs ++ withoutBlanks ds := by
  have hself : (marks .outside cs).filter (fun m => !isBlank m) = marks .outside cs :=
    List.filter_eq_self.2 fun m hm => by rw [h.solid m hm]; rfl
  rw [withoutBlanks_append h.after, withoutBlanks, hself, map_fst_marks]

theorem isSolid_of_all (h : (cs.all fun c => decide (c ∉ ['\x22', ' ', '\n'])) = true) :
    IsSolid cs := by
  have hne (c : Char) (hc : c ∈ cs) : c ∉ ['\x22', ' ', '\n'] :=
    of_decide_eq_true (List.all_eq_true.1 h c hc)
  have hquote : '\x22' ∉ cs := fun hmem => hne _ hmem (by decide)
  refine ⟨?_, after_outside hquote⟩
  rw [marks_outside hquote]
  refine List.forall_mem_map.2 fun c hc => ?_
  have hblank := hne c hc
  rw [List.mem_cons, List.mem_cons, List.mem_singleton, not_or, not_or] at hblank
  simp [isBlank, hblank]

/-- A whole string is solid, whatever blanks it has. -/
theorem EndsString.isSolid (h : EndsString cs) : IsSolid ('\x22' :: cs) := by
  constructor
  · show ∀ m ∈ ('\x22', Quoting.outside) :: marks .inside cs, _
    refine List.forall_mem_cons.2 ⟨rfl, fun m hm => ?_⟩
    rw [isBlank, decide_eq_false (h.within m hm), Bool.false_and]
  · exact h.after

theorem withoutBlanks_cons (c : Char) (hc : c ∉ ['\x22', ' ', '\n']) (cs : List Char) :
    withoutBlanks (c :: cs) = c :: withoutBlanks cs := by
  have hsolid : IsSolid [c] :=
    isSolid_of_all (List.all_eq_true.2 (List.forall_mem_singleton.2 (decide_eq_true hc)))
  exact hsolid.append cs

/-- A string keeps its blanks. -/
theorem withoutBlanks_writeString (t : Text) (rest : List Char) :
    withoutBlanks (writeString t rest) = writeString t (withoutBlanks rest) := by
  have hwrite (rest : List Char) :
      writeString t rest = ('\x22' :: (t.flatMap writePoint ++ ['\x22'])) ++ rest := by
    simp [writeString]
  rw [hwrite, hwrite]
  exact (endsString_flatMap t).isSolid.append rest

/-- What sets lines apart is blank. -/
theorem withoutBlanks_lineBreak (layout : Layout) (depth : Nat) (cs : List Char) :
    withoutBlanks (layout.lineBreak depth ++ cs) = withoutBlanks cs := by
  cases layout with
  | compact => rfl
  | indented width =>
    have hquote : '\x22' ∉ Layout.lineBreak (.indented width) depth := by
      simp [Layout.lineBreak]
    have hblank : withoutBlanks (Layout.lineBreak (.indented width) depth) = [] := by
      rw [withoutBlanks, marks_outside hquote, List.map_eq_nil_iff, List.filter_eq_nil_iff]
      refine List.forall_mem_map.2 (List.forall_mem_cons.2 ⟨by decide, fun c hc => ?_⟩)
      rw [List.eq_of_mem_replicate hc]
      decide
    rw [withoutBlanks_append (after_outside hquote), hblank, List.nil_append]

theorem withoutBlanks_colon (layout : Layout) (cs : List Char) :
    withoutBlanks (layout.colon ++ cs) = ':' :: withoutBlanks cs := by
  cases layout with
  | compact => exact withoutBlanks_cons ':' (by decide) cs
  | indented width => exact withoutBlanks_cons ':' (by decide) (' ' :: cs)

/-! ## Values -/

theorem withoutBlanks_writeItems {items : List Json}
    (h : ∀ v ∈ items, ∀ rest, withoutBlanks (write layout depth v rest) =
      write .compact depth v (withoutBlanks rest)) (rest : List Char) :
    withoutBlanks (writeItems layout depth items rest) =
      writeItems .compact depth items (withoutBlanks rest) := by
  induction items with
  | nil => rfl
  | cons item items ih =>
    rw [List.forall_mem_cons] at h
    rw [writeItems, withoutBlanks_cons ',' (by decide), withoutBlanks_lineBreak, h.1, ih h.2]
    rfl

theorem withoutBlanks_writeMembers {members : List (Text × Json)}
    (h : ∀ m ∈ members, ∀ rest, withoutBlanks (write layout depth m.2 rest) =
      write .compact depth m.2 (withoutBlanks rest)) (rest : List Char) :
    withoutBlanks (writeMembers layout depth members rest) =
      writeMembers .compact depth members (withoutBlanks rest) := by
  induction members with
  | nil => rfl
  | cons m members ih =>
    rw [List.forall_mem_cons] at h
    rw [writeMembers, withoutBlanks_cons ',' (by decide), withoutBlanks_lineBreak,
      withoutBlanks_writeString, withoutBlanks_colon, h.1, ih h.2]
    rfl

theorem isSolid_toString (i : Int) : IsSolid (toString i).toList := by
  refine isSolid_of_all (List.all_eq_true.2 fun c hc => decide_eq_true ?_)
  rcases isDigit_of_mem_toString hc with rfl | hdigit
  · decide
  · simp [ne_of_isDigit _ hdigit]

/-- Without its blanks, a value in any layout is the compact one. -/
theorem withoutBlanks_write {v : Json} (hv : Readable room v) (depth : Nat) (rest : List Char) :
    withoutBlanks (write layout depth v rest) = write .compact depth v (withoutBlanks rest) := by
  induction hv generalizing depth rest with
  | null => exact (isSolid_of_all (by decide)).append rest
  | bool b => cases b <;> exact (isSolid_of_all (by decide)).append rest
  | integer _ => exact (isSolid_toString _).append rest
  | string s => exact withoutBlanks_writeString _ rest
  -- An array without items is written on one line in every layout.
  | @array _ items _ ih =>
    cases items with
    | nil =>
      rw [write, write, withoutBlanks_cons '[' (by decide), withoutBlanks_cons ']' (by decide)]
    | cons item items =>
      rw [List.forall_mem_cons] at ih
      rw [write, withoutBlanks_cons '[' (by decide), withoutBlanks_lineBreak, ih.1,
        withoutBlanks_writeItems fun v hv => ih.2 v hv (depth + 1), withoutBlanks_lineBreak,
        withoutBlanks_cons ']' (by decide)]
      rfl
  | @object _ members _ _ _ ih =>
    cases members with
    | nil =>
      rw [write, write, withoutBlanks_cons '\x7b' (by decide),
        withoutBlanks_cons '\x7d' (by decide)]
    | cons m members =>
      rw [List.forall_mem_cons] at ih
      rw [write, withoutBlanks_cons '\x7b' (by decide), withoutBlanks_lineBreak,
        withoutBlanks_writeString, withoutBlanks_colon, ih.1,
        withoutBlanks_writeMembers fun m hm => ih.2 m hm (depth + 1), withoutBlanks_lineBreak,
        withoutBlanks_cons '\x7d' (by decide)]
      rfl

/-- Without the blanks of its layout, the text of a value is its compact text. -/
theorem withoutBlanks_render {v : Json} (hv : Readable room v) (layout : Layout) :
    withoutBlanks (render layout v).toList = (render .compact v).toList := by
  rw [render, render, String.toList_ofList, String.toList_ofList]
  exact withoutBlanks_write hv 0 []

-- The quote behind a backslash does not end the string.
example : withoutBlanks "[\n \x22a \\\x22 b\x22 ]".toList = "[\x22a \\\x22 b\x22]".toList := by
  decide

/-! ## Spaces in strings -/

theorem ne_space_of_mem_unitEscape {n : Nat} (h : c ∈ unitEscape n) : c ≠ ' ' := by
  have hdigit : ∀ d < 16, Nat.digitChar d ≠ ' ' := by decide
  rw [unitEscape, List.mem_cons, List.mem_cons] at h
  rcases h with rfl | rfl | h
  · decide
  · decide
  · obtain ⟨d, hd, rfl⟩ := Hex.exists_of_mem_digits h
    exact hdigit d hd

theorem space_notMem_writePoint {p : CodePoint} (hp : p ≠ .scalar ' ') : ' ' ∉ writePoint p := by
  intro h
  rcases writePoint_cases p with ⟨d, rfl, -, -, -, -, hwrite⟩ | ⟨d, e, -, -, he, hwrite⟩ | hwrite
  · rw [hwrite, List.mem_singleton] at h
    exact hp (by rw [h])
  · rw [hwrite, List.mem_cons, List.mem_singleton] at h
    rcases h with h | rfl
    · exact absurd h (by decide)
    · cases he
  · rw [hwrite, List.mem_flatMap] at h
    obtain ⟨u, -, hu⟩ := h
    exact ne_space_of_mem_unitEscape hu rfl

def Spaceless (t : Text) : Prop :=
  .scalar ' ' ∉ t

theorem spaceless_ofString {s : String} (h : ' ' ∉ s.toList) : Spaceless (Text.ofString s) := by
  intro hmem
  obtain ⟨c, hc, hscalar⟩ := List.mem_map.1 hmem
  cases hscalar
  exact h hc

/-- The compact text of a value has no space if its strings and keys have none. -/
theorem space_notMem_render {v : Json} (hv : AllTexts Spaceless v) :
    ' ' ∉ (render .compact v).toList := by
  have hcovers : Layout.compact.Covers Spaceless (· ≠ ' ') := by
    refine ⟨fun _ _ hc => hc, ?texts, fun _ _ hc => (nomatch hc), ?colon⟩
    case texts =>
      rintro t ht p hp c hc rfl
      exact space_notMem_writePoint (fun hspace => ht (hspace ▸ hp)) hc
    case colon => exact List.forall_mem_singleton.2 (by decide)
  exact fun hmem => forall_mem_render hcovers hv _ hmem rfl

end LetFun.Json
