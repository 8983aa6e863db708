import LetFun.Proofs.Artifact
import LetFun.Proofs.Schema.Conformance
/-!
# What artifacts are read as

A text is read as a program if it is an object with the version of the format and a program that
conforms to the schema. What the program is depends on the values of the known keys alone
(`deserialize_schema`).
-/

namespace LetFun.Artifact

open Shape

variable {text : String} {ms : Members} {p : Program}

/-! ## Objects with a version -/

def valueOf (key : String) (ms : Members) : Json :=
  (Json.get? key ms).getD .null

theorem get?_eq_ofString_iff {key s : String} :
    Json.get? key ms = some (.ofString s) ↔ valueOf key ms = .ofString s := by
  unfold valueOf
  cases Json.get? key ms with
  | none =>
    rw [Option.getD_none]
    exact ⟨fun h => (nomatch h), fun h => (nomatch h)⟩
  | some v => rw [Option.getD_some, Option.some.injEq]

/-- With the right version, only the program is left to be checked. -/
theorem deserialize_of_version [CallStack]
    (hread : Json.read CallStack.read text.toList = .ok (.object ms))
    (hversion : valueOf "v" ms = .ofString version) :
    deserialize text =
      (Program.ofJson (valueOf "program" ms)).mapError fun fs => .invalid ⟨.program, fs⟩ := by
  unfold valueOf at hversion ⊢
  rw [deserialize, hread]
  dsimp only
  rw [hversion, Json.ofString]
  dsimp only
  rw [if_pos rfl]
  cases Program.ofJson ((Json.get? "program" ms).getD .null) <;> rfl

/-- Another version is refused, whatever the program may be. -/
theorem deserialize_of_ne_version [CallStack]
    (hread : Json.read CallStack.read text.toList = .ok (.object ms))
    (hversion : valueOf "v" ms ≠ .ofString version) :
    deserialize text = .error (.version (valueOf "v" ms)) := by
  unfold valueOf at hversion ⊢
  rw [deserialize, hread]
  dsimp only
  generalize (Json.get? "v" ms).getD .null = found at hversion ⊢
  cases found with
  | string t =>
    dsimp only
    by_cases ht : t = Text.ofString version
    · exact absurd (congrArg Json.string ht) hversion
    · rw [if_neg ht]
  | _ => rfl

/-- Only the version of this format is accepted. -/
theorem version_of_deserialize_ok [CallStack]
    (hread : Json.read CallStack.read text.toList = .ok (.object ms))
    (h : deserialize text = .ok p) : valueOf "v" ms = .ofString version := by
  by_cases hversion : valueOf "v" ms = .ofString version
  · exact hversion
  · rw [deserialize_of_ne_version hread hversion] at h
    cases h

/-- Only the text of an object is accepted. -/
theorem exists_object_of_deserialize_ok [CallStack] (h : deserialize text = .ok p) :
    ∃ ms, Json.read CallStack.read text.toList = .ok (.object ms) := by
  rw [deserialize] at h
  cases hread : Json.read CallStack.read text.toList with
  | error e =>
    rw [hread] at h
    cases h
  | ok v =>
    cases v with
    | object ms => exact ⟨ms, rfl⟩
    | _ =>
      rw [hread] at h
      cases h

/-! ## Programs -/

/-- An object is accepted for two of its members alone. -/
theorem deserialize_eq_ok_iff_of_read [CallStack]
    (hread : Json.read CallStack.read text.toList = .ok (.object ms)) :
    deserialize text = .ok p ↔
      valueOf "v" ms = .ofString version ∧ Program.ofJson (valueOf "program" ms) = .ok p := by
  constructor
  · intro h
    have hversion := version_of_deserialize_ok hread h
    rw [deserialize_of_version hread hversion] at h
    refine ⟨hversion, ?_⟩
    cases hprogram : Program.ofJson (valueOf "program" ms) with
    | ok q =>
      rw [hprogram] at h
      exact congrArg Except.ok (Except.ok.inj h)
    | error fs =>
      rw [hprogram] at h
      cases h
  · rintro ⟨hversion, hprogram⟩
    rw [deserialize_of_version hread hversion, hprogram]
    rfl

-- A program that is not there is taken as null, and neither of them is a program.
theorem ofJson_valueOf_eq_ok_iff :
    Program.ofJson (valueOf "program" ms) = .ok p ↔
      (Shape.node .program).check (Json.get? "program" ms) = .ok p := by
  unfold valueOf
  cases Json.get? "program" ms with
  | none =>
    rw [Option.getD_none, Program.ofJson]
    constructor <;> (intro h; cases h)
  | some v => exact Iff.rfl

/-- A text is read as a program if it is an object with the version of the format and a program
that differs from this one in nothing that matters. -/
theorem deserialize_eq_ok_iff [CallStack] :
    deserialize text = .ok p ↔
      ∃ ms, Json.read CallStack.read text.toList = .ok (.object ms) ∧
        Json.get? "v" ms = some (.ofString version) ∧
        Alike (.node .program) (Json.get? "program" ms) (some p.toJson) := by
  have hms (ms : Members) : Alike (.node .program) (Json.get? "program" ms) (some p.toJson) ↔
      Program.ofJson (valueOf "program" ms) = .ok p :=
    (ofJson_valueOf_eq_ok_iff.trans check_eq_ok_iff).symm
  constructor
  · intro h
    obtain ⟨ms, hread⟩ := exists_object_of_deserialize_ok h
    obtain ⟨hversion, hprogram⟩ := (deserialize_eq_ok_iff_of_read hread).1 h
    exact ⟨ms, hread, get?_eq_ofString_iff.2 hversion, (hms ms).2 hprogram⟩
  · rintro ⟨ms, hread, hversion, hprogram⟩
    exact (deserialize_eq_ok_iff_of_read hread).2
      ⟨get?_eq_ofString_iff.1 hversion, (hms ms).1 hprogram⟩

/-- A text is read as a program if it is an object with the version of the format and a program
that conforms to the schema. -/
theorem exists_deserialize_iff [CallStack] :
    (∃ p, deserialize text = .ok p) ↔
      ∃ ms, Json.read CallStack.read text.toList = .ok (.object ms) ∧
        Json.get? "v" ms = some (.ofString version) ∧
        Conforms (.node .program) (Json.get? "program" ms) := by
  constructor
  · rintro ⟨p, h⟩
    obtain ⟨ms, hread, hversion, hprogram⟩ := deserialize_eq_ok_iff.1 h
    refine ⟨ms, hread, hversion, isOk_check_iff.1 ?_⟩
    rw [check_eq_ok_iff.2 hprogram]
    rfl
  · rintro ⟨ms, hread, hversion, hconforms⟩
    have hok := isOk_check_iff.2 hconforms
    cases hcheck : (Shape.node .program).check (Json.get? "program" ms) with
    | ok p => exact ⟨p, deserialize_eq_ok_iff.2 ⟨ms, hread, hversion, check_eq_ok_iff.1 hcheck⟩⟩
    | error fs =>
      rw [hcheck] at hok
      cases hok

/-- Two objects are read as the same, or refused alike, if their versions are the same and their
programs differ in nothing that matters. -/
theorem deserialize_congr [CallStack] {text' : String} {ns : Members}
    (hread : Json.read CallStack.read text.toList = .ok (.object ms))
    (hread' : Json.read CallStack.read text'.toList = .ok (.object ns))
    (hversion : valueOf "v" ms = valueOf "v" ns)
    (hprogram : Alike (.node .program) (some (valueOf "program" ms))
      (some (valueOf "program" ns))) :
    deserialize text = deserialize text' := by
  by_cases h : valueOf "v" ns = .ofString version
  · have hcheck : Program.ofJson (valueOf "program" ms) = Program.ofJson (valueOf "program" ns) :=
      hprogram.check_eq
    rw [deserialize_of_version hread (hversion.trans h), deserialize_of_version hread' h, hcheck]
  · rw [deserialize_of_ne_version hread (hversion ▸ h), deserialize_of_ne_version hread' h,
      hversion]

/-- A text is read as a program if and only if it is decoded, its value is an object, its version is
that of the format and its program conforms to the schema; and what it is read as depends on
nothing but what matters. The checks are made in this order: whatever the later ones would find,
the first that fails is reported. -/
theorem deserialize_schema [CallStack] (text : String) :
    ((∃ p, deserialize text = .ok p) ↔
      ∃ ms, Json.read CallStack.read text.toList = .ok (.object ms) ∧
        Json.get? "v" ms = some (.ofString "1") ∧
        Conforms (.node .program) (Json.get? "program" ms)) ∧
    (∀ p, deserialize text = .ok p ↔
      ∃ ms, Json.read CallStack.read text.toList = .ok (.object ms) ∧
        Json.get? "v" ms = some (.ofString "1") ∧
        Alike (.node .program) (Json.get? "program" ms) (some p.toJson)) ∧
    (∀ text' ms ns,
      Json.read CallStack.read text.toList = .ok (.object ms) →
      Json.read CallStack.read text'.toList = .ok (.object ns) →
      valueOf "v" ms = valueOf "v" ns →
      Alike (.node .program) (some (valueOf "program" ms)) (some (valueOf "program" ns)) →
      deserialize text = deserialize text') ∧
    (∀ e, Json.read CallStack.read text.toList = .error e →
      deserialize text = .error (.json text.toList e)) ∧
    (∀ v, Json.read CallStack.read text.toList = .ok v → (∀ ms, v ≠ .object ms) →
      deserialize text = .error .notObject) ∧
    (∀ ms, Json.read CallStack.read text.toList = .ok (.object ms) →
      Json.get? "v" ms ≠ some (.ofString "1") →
      deserialize text = .error (.version (valueOf "v" ms))) ∧
    (∀ ms, Json.read CallStack.read text.toList = .ok (.object ms) →
      Json.get? "v" ms = some (.ofString "1") →
      ¬Conforms (.node .program) (Json.get? "program" ms) →
      ∃ faults, deserialize text = .error (.invalid ⟨.program, faults⟩)) := by
  refine ⟨exists_deserialize_iff, fun _ => deserialize_eq_ok_iff, ?same, ?decoded, ?object,
    ?version, ?program⟩
  case same => exact fun _ _ _ => deserialize_congr
  case decoded =>
    intro e hread
    rw [deserialize, hread]
  case object =>
    intro v hread hobject
    rw [deserialize, hread]
    cases v with
    | object ms => exact absurd rfl (hobject ms)
    | _ => rfl
  case version =>
    intro ms hread hversion
    exact deserialize_of_ne_version hread fun h => hversion (get?_eq_ofString_iff.2 h)
  case program =>
    intro ms hread hversion hconforms
    rw [deserialize_of_version hread (get?_eq_ofString_iff.1 hversion)]
    cases hprogram : Program.ofJson (valueOf "program" ms) with
    | error fs => exact ⟨fs, rfl⟩
    | ok p =>
      refine absurd (isOk_check_iff.1 ?_) hconforms
      rw [ofJson_valueOf_eq_ok_iff.1 hprogram]
      rfl

/-- An object for the empty program with a member of no meaning, and values that count as the
integers 0 and 7. -/
def laxDocument : Members :=
  members [("more", .null), ("program", .object (members [("end", .ofString " 0_7 "),
    ("start", .bool false)])), ("v", .ofString "1")]

theorem readable_laxDocument : Json.Readable CallStack.read (.object laxDocument) := by
  apply readable_members
  · simp
  · rw [List.forall_mem_cons, List.forall_mem_cons, List.forall_mem_singleton]
    refine ⟨.null, readable_members (by simp) ?_, .string "1"⟩
    rw [List.forall_mem_cons, List.forall_mem_singleton]
    exact ⟨.string " 0_7 ", .bool false⟩

theorem laxDocument_schema :
    deserialize (Json.render .compact (.object laxDocument)) = .ok ⟨⟨0, 7⟩, []⟩ ∧
      deserialize (Json.render .compact (.object laxDocument)) =
        deserialize (Json.render (.indented 2) (document ⟨⟨0, 7⟩, []⟩)) := by
  have hread : Json.read CallStack.read (Json.render .compact (.object laxDocument)).toList =
      .ok (.object laxDocument) := Json.read_render readable_laxDocument .compact
  have hread' : Json.read CallStack.read
      (Json.render (.indented 2) (document ⟨⟨0, 7⟩, []⟩)).toList = .ok (document ⟨⟨0, 7⟩, []⟩) :=
    Json.read_render (readable_document (by decide +kernel) (by decide)) (.indented 2)
  have hend : Json.CountsAs (.ofString " 0_7 ") 7 := .string (readWhole_eq_ok_iff.1 rfl)
  have halike : Alike (.node .program) (Json.get? "program" laxDocument)
      (some (Program.toJson ⟨⟨0, 7⟩, []⟩)) := by
    apply Alike.node
    refine NodeType.forall_fields.2 ⟨?start, ?stop, ?tag, List.forall_mem_singleton.2 ?body⟩
    case start => exact .integer (.bool false) (.integer 0)
    case stop => exact .integer hend (.integer 7)
    case tag => exact .untagged .program
    case body => exact .unlisted .declaration
  obtain ⟨-, hprograms, hsame, -⟩ :=
    deserialize_schema (Json.render .compact (.object laxDocument))
  exact ⟨(hprograms _).2 ⟨laxDocument, hread, rfl, halike⟩,
    hsame _ laxDocument _ hread hread' rfl halike⟩

end LetFun.Artifact
