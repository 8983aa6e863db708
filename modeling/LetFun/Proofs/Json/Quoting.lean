import LetFun.Proofs.Json.Strings
import Mathlib.Data.List.Induction
/-!
# Inside and outside of strings

Whether a character of JSON text stands in a string is known from the characters before it: a quote
begins a string, and the next quote that is not behind a backslash ends it. The reader and the
writer of strings agree with that (`endsString_of_stringBody`, `endsString_flatMap`).
-/

namespace LetFun.Json

/-- Where a character stands: outside of strings, in a string, or in a string behind a backslash
that it belongs to. -/
inductive Quoting where
  | outside
  | inside
  | escaped
deriving DecidableEq, Repr

namespace Quoting

def next : Quoting → Char → Quoting
  | .outside, c => if c = '\x22' then .inside else .outside
  | .inside, c => if c = '\x22' then .outside else if c = '\\' then .escaped else .inside
  | .escaped, _ => .inside

def after (q : Quoting) (cs : List Char) : Quoting :=
  cs.foldl next q

/-- Quoting goes on from one text to the next. -/
theorem after_append (q : Quoting) (cs ds : List Char) :
    q.after (cs ++ ds) = (q.after cs).after ds :=
  List.foldl_append

end Quoting

def marks (q : Quoting) : List Char → List (Char × Quoting)
  | [] => []
  | c :: cs => (c, q) :: marks (q.next c) cs

theorem marks_append (q : Quoting) (cs ds : List Char) :
    marks q (cs ++ ds) = marks q cs ++ marks (q.after cs) ds := by
  induction cs generalizing q with
  | nil => rfl
  | cons c cs ih =>
    rw [List.cons_append, marks, ih, marks]
    rfl

/-- Marks leave the characters as they are. -/
theorem map_fst_marks (q : Quoting) (cs : List Char) : (marks q cs).map Prod.fst = cs := by
  induction cs generalizing q with
  | nil => rfl
  | cons c cs ih => rw [marks, List.map_cons, ih]

variable {opening cs rest : List Char} {c : Char}

/-! ## Without quotes -/

/-- Only a quote begins a string. -/
theorem after_outside (h : '\x22' ∉ cs) : Quoting.outside.after cs = .outside := by
  induction cs with
  | nil => rfl
  | cons c cs ih =>
    rw [List.mem_cons, not_or] at h
    have hnext : Quoting.outside.next c = .outside := if_neg (Ne.symm h.1)
    show (Quoting.outside.next c).after cs = _
    rw [hnext, ih h.2]

theorem marks_outside (h : '\x22' ∉ cs) : marks .outside cs = cs.map (·, .outside) := by
  induction cs with
  | nil => rfl
  | cons c cs ih =>
    rw [List.mem_cons, not_or] at h
    have hnext : Quoting.outside.next c = .outside := if_neg (Ne.symm h.1)
    rw [marks, hnext, ih h.2, List.map_cons]

/-! ## Strings -/

/-- What stands between the opening quote of a string and the text after the string. -/
structure EndsString (cs : List Char) : Prop where
  within : ∀ m ∈ marks .inside cs, m.2 ≠ .outside
  after : Quoting.inside.after cs = .outside

def IsOrdinary (c : Char) : Prop :=
  c ≠ '\x22' ∧ c ≠ '\\'

namespace EndsString

theorem quote : EndsString ['\x22'] :=
  ⟨by simp [marks], rfl⟩

/-- An ordinary character belongs to the string. -/
theorem cons (hc : IsOrdinary c) (h : EndsString cs) : EndsString (c :: cs) := by
  have hnext : Quoting.inside.next c = .inside := by
    rw [Quoting.next, if_neg hc.1, if_neg hc.2]
  constructor
  · rw [marks, hnext, List.forall_mem_cons]
    exact ⟨nofun, h.within⟩
  · show (Quoting.inside.next c).after cs = .outside
    rw [hnext, h.after]

/-- A backslash and the character behind it belong to the string. -/
theorem escape (c : Char) (h : EndsString cs) : EndsString ('\\' :: c :: cs) := by
  constructor
  · show ∀ m ∈ ('\\', Quoting.inside) :: (c, Quoting.escaped) :: marks .inside cs, _
    rw [List.forall_mem_cons, List.forall_mem_cons]
    exact ⟨nofun, nofun, h.within⟩
  · exact h.after

end EndsString

-- A quote and a backslash are no hexadecimal digits.
theorem isOrdinary_of_ofDigits? {n : Nat} (h : Hex.ofDigits? cs = some n) :
    ∀ c ∈ cs, IsOrdinary c := by
  induction cs using List.reverseRecOn generalizing n with
  | nil => exact fun _ h => (nomatch h)
  | append_singleton cs c ih =>
    rw [Hex.ofDigits?_concat, Option.bind_eq_some_iff] at h
    obtain ⟨m, hm, hdigit⟩ := h
    obtain ⟨d, hd, -⟩ := Option.map_eq_some_iff.1 hdigit
    refine List.forall_mem_append.2 ⟨ih hm, List.forall_mem_singleton.2 ⟨?_, ?_⟩⟩
    · rintro rfl
      cases hd
    · rintro rfl
      cases hd

/-- A string is read up to the quote that ends it. -/
theorem endsString_of_stringBody {text : Text} (h : stringBody opening cs = .ok (text, rest)) :
    ∃ piece, cs = piece ++ rest ∧ EndsString piece := by
  fun_induction stringBody opening cs generalizing text with
  | case1 => simp at h
  | case2 rest => 
    cases h
    exact ⟨['\x22'], rfl, .quote⟩
  | case3 => simp at h
  | case4 => simp at h
  | case5 a b c d e rest n hn ih =>
    obtain ⟨t, ht⟩ := exists_of_prepend h
    obtain ⟨piece, hpiece, hends⟩ := ih ht
    have hdigits := isOrdinary_of_ofDigits? hn
    simp only [List.forall_mem_cons] at hdigits
    obtain ⟨ha, hb, hc, hd, -⟩ := hdigits
    refine ⟨'\\' :: 'u' :: a :: b :: c :: d :: piece, by rw [hpiece]; rfl, ?_⟩
    exact .escape 'u' (.cons ha (.cons hb (.cons hc (.cons hd hends))))
  | case6 => simp at h
  | case7 => simp at h
  | case8 c rest _ _ plain hc ih =>
    obtain ⟨t, ht⟩ := exists_of_prepend h
    obtain ⟨piece, rfl, hends⟩ := ih ht
    exact ⟨_, rfl, hends.escape c⟩
  | case9 => simp at h
  | case10 c rest hquote hend _ _ hescape _ ih =>
    obtain ⟨t, ht⟩ := exists_of_prepend h
    obtain ⟨piece, hpiece, hends⟩ := ih ht
    -- A backslash would have been taken by one of the cases before.
    have hordinary : c ≠ '\\' := by
      rintro rfl
      cases rest with
      | nil => exact hend rfl rfl
      | cons d rest => exact hescape d rest rfl rfl
    exact ⟨c :: piece, by rw [hpiece]; rfl, hends.cons ⟨hquote, hordinary⟩⟩

/-- A string is written up to the quote that ends it. -/
theorem endsString_flatMap (t : Text) : EndsString (t.flatMap writePoint ++ ['\x22']) := by
  have hread : stringBody [] (t.flatMap writePoint ++ ['\x22']) =
      .ok (t.flatMap CodePoint.units, []) := stringBody_flatMap t
  obtain ⟨piece, hpiece, hends⟩ := endsString_of_stringBody hread
  rw [List.append_nil] at hpiece
  rwa [hpiece]

end LetFun.Json
