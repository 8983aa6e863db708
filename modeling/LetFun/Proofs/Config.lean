import LetFun.Config
import LetFun.Proofs.Yaml.Mapping
/-!
# Settings of a mapping

What settings a mapping gives, and what is wrong with it, does not depend on the order of its
entries. It gives settings exactly if all keys are fields and their values fit, and in every other
case the first problem in the order of the checks is found (`ofEntries_perm_and_outcome`). A key
that has too many digits to be named comes before all other problems.
-/

namespace LetFun.Config

open Yaml (Scalar Value HasDistinctKeys HasDistinctNames)

variable {entries entries' : List (Scalar × Value)} {k : Scalar} {v : Value}
  {name : String} {names : List Text} {b : Bool} {width : Option Nat} {config : Config}
  {problem : Problem}

/-! ## Fields -/

theorem isField_iff : isField k = true ↔ k = .text strictField ∨ k = .text indentField := by
  unfold isField
  cases k <;> simp

/-- A field has a value only if it is a key. -/
theorem mem_of_field? (h : field? name entries = some v) : (.text name, v) ∈ entries := by
  obtain ⟨⟨k, v'⟩, hfind, rfl⟩ := Option.map_eq_some_iff.1 h
  have hsame : k.same (.text name) = true := by simpa using List.find?_some hfind
  obtain rfl := Scalar.same_text_iff.1 hsame
  exact List.mem_of_find?_eq_some hfind

/-- A field without a value is no key. -/
theorem field?_eq_none_iff : field? name entries = none ↔ ∀ v, (.text name, v) ∉ entries := by
  unfold field?
  rw [Option.map_eq_none_iff, List.find?_eq_none]
  constructor
  · exact fun h v hv => h _ hv (Scalar.same_text_iff.2 rfl)
  · rintro h ⟨k, v⟩ hv hsame
    obtain rfl := Scalar.same_text_iff.1 hsame
    exact h v hv

/-- Where no name is a key twice, the value of a field is the one that stands under its name. -/
theorem field?_eq_some_iff (hkeys : HasDistinctNames entries) :
    field? name entries = some v ↔ (.text name, v) ∈ entries := by
  refine ⟨mem_of_field?, fun hv => ?_⟩
  cases hfield : field? name entries with
  | none => exact absurd hv (field?_eq_none_iff.1 hfield v)
  | some v' => rw [hkeys.unique (mem_of_field? hfield) hv]

/-! ## Unknown fields -/

/-- Every key that is no field is listed as often as it is a key. -/
theorem unknownFields_perm :
    (unknownFields entries).Perm (((entries.map (·.1)).filter (!isField ·)).map Scalar.display) :=
  List.mergeSort_perm _ _

theorem unknownFields_sorted : (unknownFields entries).Pairwise (· ≤ ·) := by
  have htrans : ∀ a b c : Text, decide (a ≤ b) = true → decide (b ≤ c) = true →
      decide (a ≤ c) = true := fun a b c hab hbc =>
    decide_eq_true (List.le_trans (of_decide_eq_true hab) (of_decide_eq_true hbc))
  have htotal : ∀ a b : Text, (decide (a ≤ b) || decide (b ≤ a)) = true := fun a b => by
    simpa using List.le_total a b
  have hsorted := List.pairwise_mergeSort htrans htotal
    (((entries.map (·.1)).filter (!isField ·)).map Scalar.display)
  exact hsorted.imp of_decide_eq_true

/-- Names are in one order only. -/
theorem eq_unknownFields (hnames : names.Perm (unknownFields entries))
    (hsorted : names.Pairwise (· ≤ ·)) : names = unknownFields entries :=
  hnames.eq_of_pairwise (fun _ _ _ _ => List.le_antisymm) hsorted unknownFields_sorted

/-- Nothing is listed if all keys are fields. -/
theorem unknownFields_eq_nil_iff :
    unknownFields entries = [] ↔ ∀ e ∈ entries, isField e.1 = true := by
  rw [← List.length_eq_zero_iff, unknownFields_perm.length_eq]
  simp

/-! ## Values of fields -/

inductive GivesWidth : Value → Option Nat → Prop where
  | null : GivesWidth (.scalar .null) none
  | natural (n : Nat) : GivesWidth (.scalar (.integer n)) (some n)

/-- Only truth values give strictness. -/
theorem strictOf_some_eq_ok_iff : strictOf (some v) = .ok b ↔ v = .scalar (.bool b) := by
  cases v with
  | collection => simp [strictOf]
  | scalar s => cases s <;> simp [strictOf]

/-- Only null and natural numbers give an indentation. -/
theorem indentOf_some_eq_ok_iff : indentOf (some v) = .ok width ↔ GivesWidth v width := by
  constructor
  · intro h
    cases v with
    | collection => cases h
    | scalar s =>
      cases s with
      | null =>
        cases h
        exact .null
      | integer i =>
        unfold indentOf at h
        dsimp only at h
        by_cases hi : 0 ≤ i
        · rw [if_pos hi] at h
          cases h
          obtain ⟨n, rfl⟩ := Int.eq_ofNat_of_zero_le hi
          exact .natural n
        · rw [if_neg hi] at h
          cases h
      | _ => cases h
  · rintro (_ | n)
    · rfl
    · rfl

theorem strictOf_eq_ok_or_error (v? : Option Value) :
    (∃ b, strictOf v? = .ok b) ∨ strictOf v? = .error .strictNotBoolean := by
  unfold strictOf
  split
  · exact .inl ⟨_, rfl⟩
  · exact .inl ⟨_, rfl⟩
  · exact .inr rfl

theorem indentOf_eq_ok_or_error (v? : Option Value) :
    (∃ width, indentOf v? = .ok width) ∨ indentOf v? = .error .indentNotNatural := by
  unfold indentOf
  split
  · exact .inl ⟨_, rfl⟩
  · exact .inl ⟨_, rfl⟩
  · split
    · exact .inl ⟨_, rfl⟩
    · exact .inr rfl
  · exact .inr rfl

/-- What a check makes of the value of a field: the default if there is none, the result that it
gives, and else a fault. -/
structure Checks {α : Type} (check : Option Value → Except Problem α) (Gives : Value → α → Prop)
    (default : α) (fault : Problem) : Prop where
  absent : check none = .ok default
  present : ∀ v a, check (some v) = .ok a ↔ Gives v a
  ok_or_fault : ∀ v?, (∃ a, check v? = .ok a) ∨ check v? = .error fault

/-- The check of strictness is one in the sense of `Checks`. -/
theorem checks_strictOf : Checks strictOf (fun v b => v = .scalar (.bool b))
    ({} : Config).strict .strictNotBoolean :=
  ⟨rfl, fun _ _ => strictOf_some_eq_ok_iff, strictOf_eq_ok_or_error⟩

/-- The check of the indentation is one in the sense of `Checks`. -/
theorem checks_indentOf : Checks indentOf GivesWidth ({} : Config).indent .indentNotNatural :=
  ⟨rfl, fun _ _ => indentOf_some_eq_ok_iff, indentOf_eq_ok_or_error⟩

namespace Checks

variable {α : Type} {check : Option Value → Except Problem α} {Gives : Value → α → Prop}
  {default a : α} {fault : Problem} (hcheck : Checks check Gives default fault)
  (hkeys : HasDistinctNames entries)
include hcheck hkeys

/-- Each value of the field gives the result, and it is the default if the field is missing. -/
theorem eq_ok_iff : check (field? name entries) = .ok a ↔
    (∀ v, (.text name, v) ∈ entries → Gives v a) ∧
      ((∀ v, (.text name, v) ∉ entries) → a = default) := by
  cases hfield : field? name entries with
  | none =>
    have habsent := field?_eq_none_iff.1 hfield
    rw [hcheck.absent]
    constructor
    · intro h
      cases h
      exact ⟨fun v hv => absurd hv (habsent v), fun _ => rfl⟩
    · rintro ⟨-, hdefault⟩
      rw [hdefault habsent]
  | some v =>
    have hv := (field?_eq_some_iff hkeys).1 hfield
    rw [hcheck.present]
    constructor
    · intro h
      exact ⟨fun w hw => hkeys.unique hv hw ▸ h, fun habsent => absurd hv (habsent v)⟩
    · exact fun h => h.1 v hv

/-- The check fails exactly if the field is there and its value gives nothing. -/
theorem eq_error_iff : check (field? name entries) = .error problem ↔
    problem = fault ∧ ∃ v, (.text name, v) ∈ entries ∧ ∀ a, ¬ Gives v a := by
  cases hfield : field? name entries with
  | none =>
    have habsent := field?_eq_none_iff.1 hfield
    rw [hcheck.absent]
    exact ⟨fun h => (nomatch h), fun ⟨_, v, hv, _⟩ => absurd hv (habsent v)⟩
  | some v =>
    have hv := (field?_eq_some_iff hkeys).1 hfield
    constructor
    · intro h
      refine ⟨?_, v, hv, fun a ha => ?_⟩
      · rcases hcheck.ok_or_fault (some v) with ⟨a, hok⟩ | hfault
        · rw [hok] at h
          cases h
        · rw [hfault] at h
          cases h
          rfl
      · rw [(hcheck.present v a).2 ha] at h
        cases h
    · rintro ⟨rfl, w, hw, hno⟩
      obtain rfl := hkeys.unique hw hv
      rcases hcheck.ok_or_fault (some w) with ⟨a, hok⟩ | hfault
      · exact absurd ((hcheck.present w a).1 hok) (hno a)
      · exact hfault

/-- A check succeeds if every value of the field passes. -/
theorem exists_eq_ok (h : ∀ v, (.text name, v) ∈ entries → ∃ a, Gives v a) :
    ∃ a, check (field? name entries) = .ok a := by
  rcases hcheck.ok_or_fault (field? name entries) with hok | hfault
  · exact hok
  · obtain ⟨-, v, hv, hno⟩ := (hcheck.eq_error_iff hkeys).1 hfault
    obtain ⟨a, ha⟩ := h v hv
    exact absurd ha (hno a)

end Checks

/-! ## Settings of entries -/

/-- All keys are fields, present fields give the settings, and absent ones leave the defaults. -/
structure AsksFor (entries : List (Scalar × Value)) (config : Config) : Prop where
  known : ∀ e ∈ entries, e.1 = .text strictField ∨ e.1 = .text indentField
  strict : ∀ v, (.text strictField, v) ∈ entries → v = .scalar (.bool config.strict)
  default_strict : (∀ v, (.text strictField, v) ∉ entries) → config.strict = ({} : Config).strict
  indent : ∀ v, (.text indentField, v) ∈ entries → GivesWidth v config.indent
  default_indent : (∀ v, (.text indentField, v) ∉ entries) → config.indent = ({} : Config).indent

/-- What a problem says is so of the entries of a mapping, and no earlier problem is. -/
inductive Problem.HoldsOf (entries : List (Scalar × Value)) : Problem → Prop where
  | unnamableField {e : Scalar × Value} (he : e ∈ entries) (h : e.1.isShowable = false) :
    HoldsOf entries .unnamableField
  | unknownFields {names : List Text} (hshow : ∀ e ∈ entries, e.1.isShowable = true)
    (hnames : names.Perm (((entries.map (·.1)).filter (!isField ·)).map Scalar.display))
    (hsorted : names.Pairwise (· ≤ ·)) (hne : names ≠ []) : HoldsOf entries (.unknownFields names)
  | strictNotBoolean {v : Value} (hknown : ∀ e ∈ entries, isField e.1 = true)
    (hv : (.text strictField, v) ∈ entries) (h : ∀ b, v ≠ .scalar (.bool b)) :
    HoldsOf entries .strictNotBoolean
  | indentNotNatural {v : Value} (hknown : ∀ e ∈ entries, isField e.1 = true)
    (hstrict : ∀ w, (.text strictField, w) ∈ entries → ∃ b, w = .scalar (.bool b))
    (hv : (.text indentField, v) ∈ entries) (h : ∀ width, ¬ GivesWidth v width) :
    HoldsOf entries .indentNotNatural

theorem any_unshowable_iff : (entries.any fun (key, _) => !key.isShowable) = true ↔
    ∃ e ∈ entries, e.1.isShowable = false := by
  simp

/-- A key that cannot be shown spoils everything, since the list of unknown keys has no
text then. -/
theorem ofEntries_of_unshowable {e : Scalar × Value} (he : e ∈ entries)
    (h : e.1.isShowable = false) : ofEntries entries = .error .unnamableField := by
  rw [ofEntries, if_pos (any_unshowable_iff.2 ⟨e, he, h⟩)]

/-- If all keys can be shown, unknown ones come first, then strictness and then the indentation. -/
theorem ofEntries_of_showable (hshow : ∀ e ∈ entries, e.1.isShowable = true) :
    ofEntries entries =
      if unknownFields entries ≠ [] then .error (.unknownFields (unknownFields entries))
      else do
        let strict ← strictOf (field? strictField entries)
        let indent ← indentOf (field? indentField entries)
        return ⟨strict, indent⟩ := by
  rw [ofEntries, if_neg]
  rw [any_unshowable_iff]
  rintro ⟨e, he, h⟩
  rw [hshow e he] at h
  cases h

theorem isShowable_of_isField (h : isField k = true) : k.isShowable = true := by
  rcases isField_iff.1 h with rfl | rfl <;> rfl

/-- Where all keys are fields, only their values are checked. -/
theorem ofEntries_of_known (hknown : ∀ e ∈ entries, isField e.1 = true) :
    ofEntries entries = do
      let strict ← strictOf (field? strictField entries)
      let indent ← indentOf (field? indentField entries)
      return ⟨strict, indent⟩ := by
  rw [ofEntries_of_showable fun e he => isShowable_of_isField (hknown e he),
    if_neg (not_not_intro (unknownFields_eq_nil_iff.2 hknown))]

/-- No settings are given if a key is unknown. -/
theorem known_of_ofEntries (h : ofEntries entries = .ok config) :
    ∀ e ∈ entries, isField e.1 = true := by
  have hshow : ∀ e ∈ entries, e.1.isShowable = true := by
    intro e he
    cases hshow : e.1.isShowable with
    | true => rfl
    | false =>
      rw [ofEntries_of_unshowable he hshow] at h
      cases h
  rw [ofEntries_of_showable hshow] at h
  by_cases hunknown : unknownFields entries = []
  · exact unknownFields_eq_nil_iff.1 hunknown
  · rw [if_pos hunknown] at h
    cases h

section

variable (hkeys : HasDistinctNames entries)
include hkeys

/-- Entries give the settings that they ask for. -/
theorem ofEntries_eq_ok_iff : ofEntries entries = .ok config ↔ AsksFor entries config := by
  constructor
  · intro h
    have hknown := known_of_ofEntries h
    rw [ofEntries_of_known hknown] at h
    obtain ⟨strict, hstrict, h⟩ := Except.bind_eq_ok_iff.1 h
    obtain ⟨indent, hindent, h⟩ := Except.bind_eq_ok_iff.1 h
    cases h
    obtain ⟨hstrict, hdefault⟩ := (checks_strictOf.eq_ok_iff hkeys).1 hstrict
    obtain ⟨hindent, hdefault'⟩ := (checks_indentOf.eq_ok_iff hkeys).1 hindent
    exact ⟨fun e he => isField_iff.1 (hknown e he), hstrict, hdefault, hindent, hdefault'⟩
  · intro h
    have hstrict := (checks_strictOf.eq_ok_iff hkeys).2 ⟨h.strict, h.default_strict⟩
    have hindent := (checks_indentOf.eq_ok_iff hkeys).2 ⟨h.indent, h.default_indent⟩
    rw [ofEntries_of_known fun e he => isField_iff.2 (h.known e he), hstrict, hindent]
    rfl

theorem holdsOf_of_ofEntries (h : ofEntries entries = .error problem) :
    problem.HoldsOf entries := by
  by_cases hshow : ∃ e ∈ entries, e.1.isShowable = false
  · obtain ⟨e, he, hshow⟩ := hshow
    rw [ofEntries_of_unshowable he hshow] at h
    cases h
    exact .unnamableField he hshow
  have hshow : ∀ e ∈ entries, e.1.isShowable = true := by
    intro e he
    rw [← Bool.not_eq_false]
    exact fun hfalse => hshow ⟨e, he, hfalse⟩
  -- The problems are looked for in this order, so each holds where the earlier ones do not.
  by_cases hunknown : unknownFields entries = []
  · have hknown := unknownFields_eq_nil_iff.1 hunknown
    rw [ofEntries_of_known hknown] at h
    rcases Except.bind_eq_error_iff.1 h with hstrict | ⟨strict, hstrict, h⟩
    · obtain ⟨rfl, v, hv, hno⟩ := (checks_strictOf.eq_error_iff hkeys).1 hstrict
      exact .strictNotBoolean hknown hv hno
    · rcases Except.bind_eq_error_iff.1 h with hindent | ⟨_, _, h⟩
      · obtain ⟨rfl, v, hv, hno⟩ := (checks_indentOf.eq_error_iff hkeys).1 hindent
        have hstrict := ((checks_strictOf.eq_ok_iff hkeys).1 hstrict).1
        exact .indentNotNatural hknown (fun w hw => ⟨strict, hstrict w hw⟩) hv hno
      · cases h
  · rw [ofEntries_of_showable hshow, if_pos hunknown] at h
    cases h
    exact .unknownFields hshow unknownFields_perm unknownFields_sorted hunknown

theorem ofEntries_of_holdsOf (h : problem.HoldsOf entries) :
    ofEntries entries = .error problem := by
  cases h with
  | unnamableField he hshow => exact ofEntries_of_unshowable he hshow
  | unknownFields hshow hnames hsorted hne =>
    have heq := eq_unknownFields (hnames.trans unknownFields_perm.symm) hsorted
    rw [ofEntries_of_showable hshow, ← heq, if_pos hne]
  | strictNotBoolean hknown hv hno =>
    rw [ofEntries_of_known hknown, (checks_strictOf.eq_error_iff hkeys).2 ⟨rfl, _, hv, hno⟩]
    rfl
  | indentNotNatural hknown hstrict hv hno =>
    rw [ofEntries_of_known hknown]
    obtain ⟨b, hok⟩ := checks_strictOf.exists_eq_ok hkeys hstrict
    rw [hok, (checks_indentOf.eq_error_iff hkeys).2 ⟨rfl, _, hv, hno⟩]
    rfl

/-- Entries give the first problem that they have. -/
theorem ofEntries_eq_error_iff : ofEntries entries = .error problem ↔ problem.HoldsOf entries :=
  ⟨holdsOf_of_ofEntries hkeys, ofEntries_of_holdsOf hkeys⟩

omit hkeys in
/-- Every natural number is an indentation, of any size. -/
theorem ofEntries_natural (n : Nat) :
    ofEntries [(.text indentField, .scalar (.integer n))] = .ok { indent := some n } := by
  have hkeys : HasDistinctNames [(.text indentField, .scalar (.integer n))] :=
    List.pairwise_singleton _ _
  have hmissing : ∀ v, (.text strictField, v) ∉
      [(Scalar.text indentField, Value.scalar (.integer n))] := by
    intro v hv
    have hname := Scalar.text.inj (congrArg Prod.fst (List.mem_singleton.1 hv))
    exact absurd hname (by decide)
  rw [ofEntries_eq_ok_iff hkeys]
  refine ⟨fun e he => ?_, fun v hv => absurd hv (hmissing v), fun _ => rfl, fun v hv => ?_, ?_⟩
  · rw [List.mem_singleton.1 he]
    exact .inr rfl
  · cases List.mem_singleton.1 hv
    exact .natural n
  · exact fun hno => absurd (List.mem_singleton.2 rfl) (hno _)

/-! ## Order of the entries -/

/-- The order of entries has no influence on the value of a field. -/
theorem field?_perm (hperm : entries'.Perm entries) :
    field? name entries' = field? name entries := by
  cases hfield : field? name entries' with
  | none =>
    have habsent := field?_eq_none_iff.1 hfield
    exact (field?_eq_none_iff.2 fun v hv => habsent v (hperm.mem_iff.2 hv)).symm
  | some v =>
    have hv := hperm.mem_iff.1 (mem_of_field? hfield)
    exact ((field?_eq_some_iff hkeys).2 hv).symm

omit hkeys in
/-- The order of entries has no influence on the list of unknown keys, which is sorted. -/
theorem unknownFields_eq_of_perm (hperm : entries'.Perm entries) :
    unknownFields entries' = unknownFields entries := by
  have hnames := ((hperm.map (·.1)).filter (!isField ·)).map Scalar.display
  have hall := (unknownFields_perm.trans hnames).trans unknownFields_perm.symm
  exact eq_unknownFields hall unknownFields_sorted

/-- The order of entries has no influence on the settings. -/
theorem ofEntries_perm (hperm : entries'.Perm entries) :
    ofEntries entries' = ofEntries entries := by
  have hany : (entries'.any fun (key, _) => !key.isShowable) =
      entries.any fun (key, _) => !key.isShowable := by
    rw [Bool.eq_iff_iff, any_unshowable_iff, any_unshowable_iff]
    simp only [hperm.mem_iff]
  rw [ofEntries, ofEntries, hany, unknownFields_eq_of_perm hperm, field?_perm hkeys hperm,
    field?_perm hkeys hperm]

/-- Some settings are asked for just if the keys are fields and their values pass the checks. -/
theorem exists_asksFor_iff : (∃ config, AsksFor entries config) ↔
    (∀ e ∈ entries, e.1 = .text strictField ∨ e.1 = .text indentField) ∧
      (∀ v, (.text strictField, v) ∈ entries → ∃ b, v = .scalar (.bool b)) ∧
      ∀ v, (.text indentField, v) ∈ entries →
        v = .scalar .null ∨ ∃ n : Nat, v = .scalar (.integer n) := by
  constructor
  · rintro ⟨config, h⟩
    refine ⟨h.known, fun v hv => ⟨_, h.strict v hv⟩, fun v hv => ?_⟩
    have hwidth := h.indent v hv
    generalize config.indent = width at hwidth
    cases hwidth with
    | null => exact .inl rfl
    | natural n => exact .inr ⟨n, rfl⟩
  · rintro ⟨hknown, hstrict, hindent⟩
    have hgives : ∀ v, (.text indentField, v) ∈ entries → ∃ width, GivesWidth v width := by
      intro v hv
      rcases hindent v hv with rfl | ⟨n, rfl⟩
      · exact ⟨none, .null⟩
      · exact ⟨some n, .natural n⟩
    obtain ⟨strict, hstrict⟩ := checks_strictOf.exists_eq_ok hkeys hstrict
    obtain ⟨width, hwidth⟩ := checks_indentOf.exists_eq_ok hkeys hgives
    obtain ⟨hstrict, hdefault⟩ := (checks_strictOf.eq_ok_iff hkeys).1 hstrict
    obtain ⟨hindent, hdefault'⟩ := (checks_indentOf.eq_ok_iff hkeys).1 hwidth
    exact ⟨⟨strict, width⟩, hknown, hstrict, hdefault, hindent, hdefault'⟩

/-- The order of the entries does not matter. They give settings exactly if all keys are fields with
values that fit; these settings are the ones asked for, and a problem is the first that there is. -/
theorem ofEntries_perm_and_outcome (hperm : entries'.Perm entries) :
    ofEntries entries' = ofEntries entries ∧
      ((∃ config, ofEntries entries = .ok config) ↔
        (∀ e ∈ entries, e.1 = .text strictField ∨ e.1 = .text indentField) ∧
          (∀ v, (.text strictField, v) ∈ entries → ∃ b, v = .scalar (.bool b)) ∧
          ∀ v, (.text indentField, v) ∈ entries →
            v = .scalar .null ∨ ∃ n : Nat, v = .scalar (.integer n)) ∧
      (∀ config, ofEntries entries = .ok config ↔ AsksFor entries config) ∧
      ∀ problem, ofEntries entries = .error problem ↔ problem.HoldsOf entries := by
  refine ⟨ofEntries_perm hkeys hperm, ?_, fun config => ofEntries_eq_ok_iff hkeys,
    fun problem => ofEntries_eq_error_iff hkeys⟩
  rw [← exists_asksFor_iff hkeys]
  simp only [ofEntries_eq_ok_iff hkeys]

end

def unknownEntries : List (Scalar × Value) :=
  [(.text "width", .scalar .null), (.integer 7, .collection), (.text indentField, .collection),
    (.text "7", .scalar .null)]

/-- All unknown fields are listed in order, and before the value that does not fit. -/
theorem unknownEntries_outcome :
    HasDistinctNames unknownEntries ∧ unknownEntries.reverse.Perm unknownEntries ∧
      ofEntries unknownEntries.reverse = ofEntries unknownEntries ∧
      ofEntries unknownEntries = .error (.unknownFields ["7", "7", "width"]) := by
  have hdistinct : HasDistinctKeys unknownEntries := by
    unfold HasDistinctKeys
    decide +kernel
  have hkeys := hdistinct.hasDistinctNames
  have hperm := List.reverse_perm unknownEntries
  have h := ofEntries_perm_and_outcome hkeys hperm
  have hshow : ∀ e ∈ unknownEntries, e.1.isShowable = true := by decide +kernel
  have hholds : (Problem.unknownFields ["7", "7", "width"]).HoldsOf unknownEntries :=
    .unknownFields hshow (by decide +kernel) (by decide +kernel) (by decide)
  exact ⟨hkeys, hperm, h.1, (h.2.2.2 _).2 hholds⟩

/-- A number with too many digits is an unknown field that is not listed. -/
theorem longKey_not_listed : ¬ ∀ entries, HasDistinctKeys entries →
    (∃ e ∈ entries, isField e.1 = false) →
      ∃ names, ofEntries entries = .error (.unknownFields names) := by
  intro h
  obtain ⟨n, hn⟩ : ∃ n : Nat, n = Nat.pow 10 digitLimit := ⟨_, rfl⟩
  have hlong : (Scalar.integer n).isShowable = false := by
    rw [Scalar.isShowable, LetFun.isShowable, ← hn]
    exact decide_eq_false (Nat.lt_irrefl n)
  have he : (Scalar.integer n, Value.scalar .null) ∈ [(Scalar.integer n, Value.scalar .null)] :=
    List.mem_singleton.2 rfl
  obtain ⟨names, hnames⟩ := h _ (List.pairwise_singleton _ _) ⟨_, he, rfl⟩
  rw [ofEntries_of_unshowable he hlong] at hnames
  cases hnames

end LetFun.Config
