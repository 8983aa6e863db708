import LetFun.Proofs.Artifact.Reading
import LetFun.Proofs.Json.Nesting
import LetFun.Proofs.Schema.Faults
/-!
# Why artifacts are refused

Every text is read as a program or refused for a reason that holds of it, unless more arrays and
objects are open in it at one place than the reader has room for (`deserialize_outcome`).
-/

namespace LetFun.Artifact

open Shape

variable {text : String} {ms : Members}

/-- An error about the text or its value, and not about the room of the reader. -/
def ReadError.IsRefusal (e : ReadError) : Prop :=
  ∀ cs, e ≠ .json cs .tooDeep

/-- What an error says is so. -/
inductive ReadError.HoldsOf [CallStack] (text : String) : ReadError → Prop where
  | json {e : Json.ReadError} (h : e.Fits CallStack.read text.toList) :
      HoldsOf text (.json text.toList e)
  | notObject {v : Json} (hread : Json.read CallStack.read text.toList = .ok v)
      (hv : ∀ ms, v ≠ .object ms) : HoldsOf text .notObject
  | version {ms : Members} (hread : Json.read CallStack.read text.toList = .ok (.object ms))
      (hversion : valueOf "v" ms ≠ .ofString Artifact.version) :
      HoldsOf text (.version (valueOf "v" ms))
  | invalid {ms : Members} {faults : List Fault}
      (hread : Json.read CallStack.read text.toList = .ok (.object ms))
      (hversion : valueOf "v" ms = .ofString Artifact.version) (hne : faults ≠ [])
      (hfaults : ∀ f ∈ faults, HasFault (.node .program) (some (valueOf "program" ms)) f) :
      HoldsOf text (.invalid ⟨.program, faults⟩)

/-- With the right version, the faults of the program are all that is reported. -/
theorem holdsOf_of_ofJson [CallStack] {faults : List Fault}
    (hread : Json.read CallStack.read text.toList = .ok (.object ms))
    (hversion : valueOf "v" ms = .ofString version)
    (hprogram : Program.ofJson (valueOf "program" ms) = .error faults) :
    ReadError.HoldsOf text (.invalid ⟨.program, faults⟩) := by
  have hcheck : (Shape.node .program).check (some (valueOf "program" ms)) = .error faults :=
    hprogram
  have hreports := reports_check (.node .program) (some (valueOf "program" ms))
  rw [hcheck] at hreports
  refine .invalid hread hversion ?_ hreports.sound
  rintro rfl
  cases hreports.isOk rfl

/-- What the error of a text says holds of it. -/
theorem holdsOf_of_deserialize [CallStack] {e : ReadError} (h : deserialize text = .error e) :
    e.HoldsOf text := by
  cases hread : Json.read CallStack.read text.toList with
  | error e' =>
    rw [deserialize, hread] at h
    cases h
    exact .json (Json.fits_of_read hread)
  | ok v =>
    -- The checks are made in this order, and the first that fails is reported.
    by_cases hv : ∃ ms, v = .object ms
    · obtain ⟨ms, rfl⟩ := hv
      by_cases hversion : valueOf "v" ms = .ofString version
      · rw [deserialize_of_version hread hversion] at h
        cases hprogram : Program.ofJson (valueOf "program" ms) with
        | ok p =>
          rw [hprogram] at h
          cases h
        | error faults =>
          rw [hprogram] at h
          cases h
          exact holdsOf_of_ofJson hread hversion hprogram
      · rw [deserialize_of_ne_version hread hversion] at h
        cases h
        exact .version hread hversion
    · rw [deserialize, hread] at h
      cases v with
      | object ms => exact absurd ⟨ms, rfl⟩ hv
      | _ =>
        cases h
        exact .notObject hread (not_exists.1 hv)

/-- A text is a program or is refused for what it says, or else it has more arrays and objects open
at one place than the reader has room for. -/
theorem deserialize_outcome [CallStack] (text : String) :
    (∃ p, deserialize text = .ok p) ∨
      (∃ e, deserialize text = .error e ∧ e.IsRefusal ∧ e.HoldsOf text) ∨
      deserialize text = .error (.json text.toList .tooDeep) ∧
        ∃ before, before <+: text.toList ∧ CallStack.read < Json.openAt before := by
  cases h : deserialize text with
  | ok p => exact .inl ⟨p, rfl⟩
  | error e =>
    have hholds := holdsOf_of_deserialize h
    by_cases hdeep : e = .json text.toList .tooDeep
    · subst hdeep
      cases hholds with
      | json hfits => exact .inr (.inr ⟨rfl, hfits⟩)
    · refine .inr (.inl ⟨e, rfl, ?_, hholds⟩)
      rintro cs rfl
      cases hholds
      exact hdeep rfl

def nestedArrays (n : Nat) : String :=
  String.ofList (List.replicate n '[' ++ List.replicate n ']')

/-- A thousand arrays inside one another, or more, are too many for every stack. -/
theorem deserialize_nestedArrays [CallStack] {n : Nat} (h : 1000 ≤ n) :
    deserialize (nestedArrays n) = .error (.json (nestedArrays n).toList .tooDeep) := by
  obtain ⟨k, rfl⟩ : ∃ k, n = k + 1 := ⟨n - 1, by omega⟩
  have hroom : CallStack.read < k + 1 := Nat.lt_of_lt_of_le CallStack.read_lt h
  have hread : Json.read CallStack.read (nestedArrays (k + 1)).toList = .error .tooDeep := by
    rw [nestedArrays, String.toList_ofList, Json.read, if_neg]
    · have hskip : Json.skip (List.replicate (k + 1) '[' ++ List.replicate (k + 1) ']') =
          List.replicate (k + 1) '[' ++ List.replicate (k + 1) ']' := rfl
      rw [hskip, Json.readValue_replicate hroom]
      rfl
    · exact fun hhead => absurd (Option.some.inj hhead) (by decide)
  rw [deserialize, hread]

/-- Arrays nested five thousand deep are well-formed, and neither read nor refused for what they
say. -/
theorem nestedArrays_not_refused :
    deserialize (nestedArrays 5000) = .error (.json (nestedArrays 5000).toList .tooDeep) ∧
      ¬ ∀ text, (∃ p, deserialize text = .ok p) ∨
        ∃ e, deserialize text = .error e ∧ e.IsRefusal := by
  have hdeep : deserialize (nestedArrays 5000) =
      .error (.json (nestedArrays 5000).toList .tooDeep) :=
    deserialize_nestedArrays (by decide)
  refine ⟨hdeep, fun hall => ?_⟩
  rcases hall (nestedArrays 5000) with ⟨p, hp⟩ | ⟨e, he, hrefusal⟩
  · cases hdeep.symm.trans hp
  · cases hdeep.symm.trans he
    exact hrefusal _ rfl

end LetFun.Artifact
