import LetFun.Artifact
import LetFun.Proofs.Document
import Mathlib.Algebra.Group.Int.Defs
/-!
# Artifacts round trip

A program that is written is read back from its text, whatever the indentation
(`deserialize_serialize`).
-/

namespace LetFun.Artifact

variable {p : Program} {indent : Option Int}

def IsWidth (indent : Option Int) : Prop :=
  ∀ n ∈ indent, -2 ^ 63 ≤ n ∧ n < 2 ^ 63

/-- A width that can be used has a layout. -/
theorem exists_layoutOf (h : IsWidth indent) : ∃ layout, layoutOf indent = .ok layout := by
  cases indent with
  | none => exact ⟨.compact, rfl⟩
  | some n => exact ⟨.indented n.toNat, if_pos (h n rfl)⟩

-- The object that stores a program takes one level more than the program.
theorem readable_document {room : Nat} (hspans : ∀ n ∈ p.walk, n.span.IsShowable)
    (hroom : 6 * p.depth + 5 ≤ room) : Json.Readable room (document p) := by
  obtain ⟨room, rfl⟩ : ∃ r, room = r + 1 := ⟨room - 1, by omega⟩
  apply readable_members
  · simp
  · rw [List.forall_mem_cons, List.forall_mem_singleton]
    exact ⟨.string version, Program.readable_toJson hspans (by omega)⟩

/-- A program has a text if it is not nested too deeply, its width has a layout and its document can
be written. -/
theorem serialize_eq_ok_iff [CallStack] {text : String} :
    serialize p indent = .ok text ↔ p.depth ≤ CallStack.dumped ∧ ∃ layout,
      layoutOf indent = .ok layout ∧ (document p).check CallStack.written = .ok () ∧
        (document p).render layout = text := by
  unfold serialize
  by_cases hdepth : CallStack.dumped < p.depth
  · rw [if_pos hdepth]
    exact ⟨fun h => (nomatch h), fun h => absurd h.1 (Nat.not_le.2 hdepth)⟩
  · rw [if_neg hdepth, Except.bind_eq_ok_iff, and_iff_right (Nat.le_of_not_lt hdepth)]
    refine exists_congr fun layout => and_congr_right fun _ => ?_
    rw [Except.bind_unit_eq_ok_iff, Except.mapError_eq_ok_iff]
    exact and_congr_right fun _ => Iff.of_eq (Except.ok.injEq _ _)

/-- Every stack has room for the document of a program that is nested at most a hundred deep. -/
theorem serialize_eq_ok [CallStack] (hdepth : p.depth ≤ 100)
    (hspans : ∀ n ∈ p.walk, n.span.IsShowable) {layout : Json.Layout}
    (hlayout : layoutOf indent = .ok layout) :
    serialize p indent = .ok ((document p).render layout) := by
  have hdumped := CallStack.dumped_ge
  have hwritten := CallStack.written_ge
  have hread : Json.Readable CallStack.written (document p) := readable_document hspans (by omega)
  exact serialize_eq_ok_iff.2 ⟨by omega, layout, hlayout, hread.check_eq, rfl⟩

/-- What can be written is read back with the same stack. -/
theorem readable_of_check [CallStack] (hspans : ∀ n ∈ p.walk, n.span.IsShowable)
    (hcheck : (document p).check CallStack.written = .ok ()) :
    Json.Readable CallStack.read (document p) :=
  ((readable_document hspans (Nat.le_refl _)).of_check hcheck).mono CallStack.written_le_read

/-- A document that is read back gives its program, in whatever layout it is written. -/
theorem deserialize_render [CallStack] (hread : Json.Readable CallStack.read (document p))
    (layout : Json.Layout) : deserialize ((document p).render layout) = .ok p := by
  have hread := Json.read_render hread layout
  have hversion : Json.get? "v" (members [("v", .ofString version), ("program", p.toJson)]) =
      some (.ofString version) := by
    rw [get?_members]
    rfl
  have hprogram : Json.get? "program"
      (members [("v", .ofString version), ("program", p.toJson)]) = some p.toJson := by
    rw [get?_members]
    rfl
  rw [deserialize, hread, document]
  simp only [hversion, hprogram, Option.getD_some]
  show (if Text.ofString version = Text.ofString version then _ else _) = _
  rw [if_pos rfl, Program.ofJson_toJson]

/-- What a program is written as is read back as the program. -/
theorem deserialize_of_serialize [CallStack] {text : String}
    (hspans : ∀ n ∈ p.walk, n.span.IsShowable) (h : serialize p indent = .ok text) :
    deserialize text = .ok p := by
  obtain ⟨-, layout, -, hcheck, rfl⟩ := serialize_eq_ok_iff.1 h
  exact deserialize_render (readable_of_check hspans hcheck) layout

/-- A program is read back from its text, and what is read back is written like the program in every
layout. -/
theorem deserialize_serialize [CallStack] (hdepth : p.depth ≤ 60)
    (hspans : ∀ n ∈ p.walk, n.span.IsShowable) (hindent : IsWidth indent) :
    ∃ text q, serialize p indent = .ok text ∧ deserialize text = .ok q ∧ q = p ∧
      ∀ other, IsWidth other →
        ∃ again, serialize p other = .ok again ∧ serialize q other = .ok again := by
  have hlimit : p.depth ≤ 100 := Nat.le_trans hdepth (by decide)
  obtain ⟨layout, hlayout⟩ := exists_layoutOf hindent
  have htext := serialize_eq_ok hlimit hspans hlayout
  refine ⟨_, p, htext, deserialize_of_serialize hspans htext, rfl, fun other hother => ?_⟩
  obtain ⟨layout', hlayout'⟩ := exists_layoutOf hother
  exact ⟨_, serialize_eq_ok hlimit hspans hlayout', serialize_eq_ok hlimit hspans hlayout'⟩

/-- Declarations that no source text has, with names that need escapes and offsets out of order. -/
def storedProgram : Program :=
  ⟨⟨-1, 10 ^ 30⟩, [⟨⟨5, 4⟩, .varKind, []⟩, ⟨⟨0, 0⟩, .constKind, [⟨⟨7, 7⟩, ⟨⟨8, -8⟩, "\x22\n€😀"⟩,
    ⟨⟨1, 2⟩, some ⟨⟨3, 4⟩, ""⟩, [⟨⟨5, 6⟩, "\\u0000"⟩], ⟨⟨0, 0⟩, [⟨⟨0, -9⟩, .letKind, []⟩]⟩⟩⟩]⟩]⟩

theorem storedProgram_deserialize_serialize :
    storedProgram.depth ≤ 60 ∧ (∀ n ∈ storedProgram.walk, n.span.IsShowable) ∧ IsWidth (some (-3)) ∧
      ∃ text q, serialize storedProgram (some (-3)) = .ok text ∧ deserialize text = .ok q ∧
        q = storedProgram ∧ ∀ other, IsWidth other →
          ∃ again, serialize storedProgram other = .ok again ∧ serialize q other = .ok again := by
  have hdepth : storedProgram.depth ≤ 60 := by decide
  have hspans : ∀ n ∈ storedProgram.walk, n.span.IsShowable := by decide +kernel
  have hindent : IsWidth (some (-3)) := by
    rintro n hn
    cases hn
    decide
  exact ⟨hdepth, hspans, hindent, deserialize_serialize hdepth hspans hindent⟩

end LetFun.Artifact
