import LetFun.Proofs.Parsing
import LetFun.Proofs.Scanning
import LetFun.Source
/-!
# Layouts of a program

A text is a layout of a program if it is the words of the program's tokens in source order, with
gaps between them, and the spans of the tree are the offsets of those words. Parsing a text is the
inverse of laying a program out (`parseSource_eq_ok_iff_laidOut`).
-/

namespace LetFun

def Program.LaidOut (p : Program) (strict : Bool) (source : String) : Prop :=
  ∃ ts, Laid strict ts source ∧ p.SpelledBy ts

/-- Once a text has tokens, the rest is up to them. -/
theorem parseSource_of_tokens [CallStack] {source : String} {strict : Bool} {ts : List Token}
    (h : tokenize source strict = .ok ts) :
    parseSource source strict = (parse ts).mapError .grammar := by
  rw [parseSource, h]
  rfl

/-- A text has a program just if it is laid out from tokens that spell it, not nested too deeply. -/
theorem parseSource_eq_ok_iff [CallStack] {source : String} {strict : Bool} {p : Program} :
    parseSource source strict = .ok p ↔
      ∃ ts, Laid strict ts source ∧ p.SpelledBy ts ∧ p.depth ≤ CallStack.bodies := by
  rw [parseSource, Except.bind_eq_ok_iff]
  refine exists_congr fun ts => ?_
  rw [Except.mapError_eq_ok_iff, Except.mapError_eq_ok_iff, tokenize_eq_ok_iff]
  exact and_congr_right fun _ => Parse.program_eq_ok_iff

/-- The declarations of `laidOutProgram` among characters that belong to no token. -/
def laidOutSource : String :=
  "1let a=function f(x,y)\x7blet b= function()\x7b\x7d\x7d2 "

def spacedSource : String :=
  " let a=function f(x y)\x7blet b= function()\x7b\x7d\x7d  "

def laidOutProgram : Program :=
  ⟨⟨0, 43⟩, [⟨⟨1, 43⟩, .letKind, [⟨⟨1, 43⟩, ⟨⟨5, 6⟩, "a"⟩, ⟨⟨7, 43⟩, some ⟨⟨16, 17⟩, "f"⟩,
    [⟨⟨18, 19⟩, "x"⟩, ⟨⟨20, 21⟩, "y"⟩], ⟨⟨22, 43⟩, [⟨⟨23, 42⟩, .letKind, [⟨⟨23, 42⟩,
      ⟨⟨27, 28⟩, "b"⟩, ⟨⟨30, 42⟩, none, [], ⟨⟨40, 42⟩, []⟩⟩⟩]⟩]⟩⟩⟩]⟩]⟩

/-- The texts that are read as a program are its layouts. -/
theorem parseSource_eq_ok_iff_laidOut [CallStack] {source : String} {strict : Bool} {p : Program}
    (hdepth : p.depth ≤ CallStack.bodies) :
    parseSource source strict = .ok p ↔ p.LaidOut strict source := by
  rw [parseSource, Except.bind_eq_ok_iff]
  constructor
  · rintro ⟨ts, htokens, hparse⟩
    have hlaid := tokenize_eq_ok_iff.1 (Except.mapError_eq_ok_iff.1 htokens)
    have hspelled := (Parse.program_eq_ok_iff.1 (Except.mapError_eq_ok_iff.1 hparse)).1
    exact ⟨ts, hlaid, hspelled⟩
  · rintro ⟨ts, hlaid, hspelled⟩
    have htokens := tokenize_eq_ok_iff.2 hlaid
    have hparse : parse ts = .ok p := Parse.program_eq_ok_iff.2 ⟨hspelled, hdepth⟩
    exact ⟨ts, Except.mapError_eq_ok_iff.2 htokens, Except.mapError_eq_ok_iff.2 hparse⟩

/-- Digits and commas may stand in gaps unless the text is strict. -/
theorem laidOutProgram_laidOut :
    laidOutProgram.depth ≤ CallStack.bodies ∧ laidOutProgram.LaidOut false laidOutSource ∧
      laidOutProgram.LaidOut true spacedSource ∧ ¬ laidOutProgram.LaidOut true laidOutSource := by
  have hdepth : laidOutProgram.depth ≤ CallStack.bodies := by decide
  have hloose : parseSource laidOutSource false = .ok laidOutProgram := by decide +kernel
  have hspaced : parseSource spacedSource true = .ok laidOutProgram := by decide +kernel
  have hstrict : parseSource laidOutSource true = .error (.character ⟨'1', 0⟩) := by decide +kernel
  refine ⟨hdepth, (parseSource_eq_ok_iff_laidOut hdepth).1 hloose,
    (parseSource_eq_ok_iff_laidOut hdepth).1 hspaced, fun h => ?_⟩
  have hread := (parseSource_eq_ok_iff_laidOut hdepth).2 h
  rw [hstrict] at hread
  cases hread

end LetFun
