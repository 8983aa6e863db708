import LetFun.Proofs.Artifact
import LetFun.Proofs.Json.Indentation
import LetFun.Proofs.Spans
import LetFun.Text.WhiteSpace
/-!
# Indented artifacts

The indented text of a program has the characters of its compact text and blanks between them. The
compact text of a program that was parsed has no white space, as the names in it are words
(`serialize_indented`).
-/

namespace LetFun

/-! ## Trees without spaces -/

open Json

theorem allTexts_ofString {s : String} (h : ' ' ∉ s.toList) : AllTexts Spaceless (.ofString s) :=
  .string (spaceless_ofString h)

section

variable {fields : List (String × Json)} (hnames : ∀ s ∈ fields.map Prod.fst, ' ' ∉ s.toList)
  (hvalues : ∀ f ∈ fields, AllTexts Spaceless f.2)
include hnames hvalues

theorem allTexts_members : AllTexts Spaceless (.object (members fields)) :=
  .object (List.forall_mem_map.2 fun _ hf => spaceless_ofString (hnames _ (List.mem_map_of_mem hf)))
    (List.forall_mem_map.2 hvalues)

theorem allTexts_nodeObject (span : Span) (type : NodeType) :
    AllTexts Spaceless (nodeObject span type fields) := by
  have htype : ' ' ∉ type.name.toList := by cases type <;> decide
  apply allTexts_members
  · rw [List.map_append, List.forall_mem_append]
    exact ⟨(by decide : ∀ s ∈ ["start", "end", "type"], ' ' ∉ s.toList), hnames⟩
  · simp only [List.cons_append, List.nil_append, List.forall_mem_cons]
    exact ⟨.integer _, .integer _, allTexts_ofString htype, hvalues⟩

end

/-- The strings in the object of a node are its names, kinds and types, so only a name may have a
space. -/
theorem Node.allTexts_toJson (n : Node)
    (hnames : ∀ i, .identifier i ∈ n.walk → ' ' ∉ i.name.toList) : AllTexts Spaceless n.toJson := by
  induction n using Node.induction with
  | h n ih =>
    have hchildren : ∀ c ∈ n.children, AllTexts Spaceless c.toJson := by
      refine fun c hc => ih c hc fun i hi => hnames i ?_
      rw [walk_eq]
      exact List.mem_cons_of_mem n (List.mem_flatMap.2 ⟨c, hc, hi⟩)
    cases n with
    | program p =>
      rw [children, List.forall_mem_map] at hchildren
      apply allTexts_nodeObject (by simp)
      rw [List.forall_mem_singleton, Declaration.toJsonList_eq_map]
      exact .array (List.forall_mem_map.2 hchildren)
    | declaration d =>
      obtain ⟨span, kind, ds⟩ := d
      rw [children, List.forall_mem_map] at hchildren
      have hkind : ' ' ∉ kind.name.toList := by cases kind <;> decide
      rw [toJson, Declaration.toJson, Declarator.toJsonList_eq_map]
      apply allTexts_nodeObject (by simp)
      rw [List.forall_mem_cons, List.forall_mem_singleton]
      exact ⟨allTexts_ofString hkind, .array (List.forall_mem_map.2 hchildren)⟩
    | declarator d =>
      obtain ⟨span, id, init⟩ := d
      rw [children, List.forall_mem_cons, List.forall_mem_singleton] at hchildren
      rw [toJson, Declarator.toJson]
      apply allTexts_nodeObject (by simp)
      rw [List.forall_mem_cons, List.forall_mem_singleton]
      exact hchildren
    | identifier i =>
      apply allTexts_nodeObject (by simp)
      rw [List.forall_mem_singleton]
      exact allTexts_ofString (hnames i List.mem_cons_self)
    | functionExpr f =>
      obtain ⟨span, id, params, body⟩ := f
      rw [children, List.forall_mem_append, List.forall_mem_append, List.forall_mem_map,
        List.forall_mem_map, List.forall_mem_singleton] at hchildren
      obtain ⟨⟨hid, hparams⟩, hbody⟩ := hchildren
      rw [toJson, FunctionExpr.toJson]
      apply allTexts_nodeObject (by simp)
      rw [List.forall_mem_cons, List.forall_mem_cons, List.forall_mem_singleton]
      refine ⟨?_, .array (List.forall_mem_map.2 hparams), hbody⟩
      cases id with
      | none => exact .null
      | some i => exact hid i List.mem_cons_self
    | block b =>
      obtain ⟨span, ds⟩ := b
      rw [children, List.forall_mem_map] at hchildren
      rw [toJson, Block.toJson, Declaration.toJsonList_eq_map]
      apply allTexts_nodeObject (by simp)
      rw [List.forall_mem_singleton]
      exact .array (List.forall_mem_map.2 hchildren)

/-! ## White space -/

theorem IsPrintableAscii.isWhiteSpace_eq {c : Char} (h : IsPrintableAscii c) (hc : c ≠ ' ') :
    isWhiteSpace c = false := by
  obtain ⟨hlow, hhigh⟩ := h
  have hlow' : 32 ≤ c.toNat := hlow
  have hhigh' : c.toNat ≤ 126 := hhigh
  have hne : c.toNat ≠ 32 := fun heq => hc (Char.toNat_inj.1 heq)
  simp [isWhiteSpace]
  omega

namespace Artifact

variable {p : Program} {n : Int} {source : String} {strict : Bool}

/-- The names in a program that comes from a text are words. -/
theorem space_notMem_of_parseSource [CallStack] (h : parseSource source strict = .ok p) :
    ∀ i, .identifier i ∈ (Node.program p).walk → ' ' ∉ i.name.toList := by
  intro i hi hspace
  have hword : i.IsWordOf source := ((parseSource_spans h).1 _ hi).reads
  exact absurd (hword.letters _ hspace) (by decide)

theorem allTexts_document [CallStack] (h : parseSource source strict = .ok p) :
    AllTexts Spaceless (document p) := by
  apply allTexts_members (by simp)
  rw [List.forall_mem_cons, List.forall_mem_singleton]
  exact ⟨allTexts_ofString (by decide),
    (Node.program p).allTexts_toJson (space_notMem_of_parseSource h)⟩

/-- The compact artifact of a program that comes from a text has no white space at all. -/
theorem isWhiteSpace_of_mem_compact [CallStack] {room : Nat} (hread : Readable room (document p))
    (h : parseSource source strict = .ok p) :
    ∀ c ∈ ((document p).render .compact).toList, isWhiteSpace c = false := by
  intro c hc
  have hspace : c ≠ ' ' := by
    rintro rfl
    exact space_notMem_render (allTexts_document h) hc
  rcases uses_of_mem_render hread hc with hprintable | ⟨hbreaks, -⟩
  · exact hprintable.isWhiteSpace_eq hspace
  · exact absurd rfl hbreaks

/-- Indentation adds nothing but blanks outside of strings to the compact text of a program, and the
compact text of a program that was parsed has no white space. -/
theorem serialize_indented [CallStack] (hdepth : p.depth ≤ 100)
    (hspans : ∀ m ∈ p.walk, m.span.IsShowable)
    (hn : -2 ^ 63 ≤ n ∧ n < 2 ^ 63) :
    ∃ text compact, serialize p (some n) = .ok text ∧ serialize p none = .ok compact ∧
      withoutBlanks text.toList = compact.toList ∧
      ∀ source strict, parseSource source strict = .ok p →
        ∀ c ∈ compact.toList, isWhiteSpace c = false := by
  have hread : Readable (6 * p.depth + 5) (document p) :=
    readable_document hspans (Nat.le_refl _)
  have hindent : IsWidth (some n) := by
    rintro m hm
    cases hm
    exact hn
  obtain ⟨layout, hlayout⟩ := exists_layoutOf hindent
  exact ⟨_, _, serialize_eq_ok hdepth hspans hlayout, serialize_eq_ok hdepth hspans rfl,
    withoutBlanks_render hread layout, fun _ _ h => isWhiteSpace_of_mem_compact hread h⟩

/-- Names with a quote, a line feed and a backslash, and a program whose names are words. -/
theorem storedProgram_indented :
    storedProgram.depth ≤ 100 ∧ (∀ m ∈ storedProgram.walk, m.span.IsShowable) ∧
      (∃ text compact, serialize storedProgram (some 2) = .ok text ∧
        serialize storedProgram none = .ok compact ∧
        withoutBlanks text.toList = compact.toList) ∧
      laidOutProgram.depth ≤ 100 ∧ (∀ m ∈ laidOutProgram.walk, m.span.IsShowable) ∧
      parseSource laidOutSource false = .ok laidOutProgram ∧
      ∃ compact, serialize laidOutProgram none = .ok compact ∧
        ∀ c ∈ compact.toList, isWhiteSpace c = false := by
  have hstored : storedProgram.depth ≤ 100 := by decide
  have hspans : ∀ m ∈ storedProgram.walk, m.span.IsShowable := by decide +kernel
  have hlaid : laidOutProgram.depth ≤ 100 := by decide
  have hspans' : ∀ m ∈ laidOutProgram.walk, m.span.IsShowable := by decide +kernel
  have hparse : parseSource laidOutSource false = .ok laidOutProgram := by decide +kernel
  obtain ⟨text, compact, htext, hcompact, hblanks, -⟩ :=
    serialize_indented hstored hspans (by decide : -2 ^ 63 ≤ (2 : Int) ∧ (2 : Int) < 2 ^ 63)
  obtain ⟨-, compact', -, hcompact', -, hspaces⟩ :=
    serialize_indented hlaid hspans' (by decide : -2 ^ 63 ≤ (0 : Int) ∧ (0 : Int) < 2 ^ 63)
  exact ⟨hstored, hspans, ⟨text, compact, htext, hcompact, hblanks⟩, hlaid, hspans', hparse,
    compact', hcompact', hspaces laidOutSource false hparse⟩

end Artifact

end LetFun
