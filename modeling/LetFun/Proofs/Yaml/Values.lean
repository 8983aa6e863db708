import LetFun.Proofs.Yaml.Faults
import LetFun.Yaml.Value
/-!
# Faults of scalars

Why a text has no value under a tag: one that is read as a truth value, a number or a point in time
is not of that form, or what it spells is out of range (`faultsIn_scalarOf`).
-/

namespace LetFun.Yaml

variable {α β : Type} {P : Fault → Prop} {f : Fault} {tag : Tag} {text : Text}

theorem FaultsIn.map {x : Except Fault α} (hx : FaultsIn P x) (g : α → β) :
    FaultsIn P (x.map g) := by
  cases x with
  | ok a => exact .ok trivial
  | error e => exact ⟨fun f he => hx.fault f (congrArg Except.error (Except.error.inj he)),
      fun _ _ => trivial⟩

theorem FaultsIn.mapM {l : List α} {g : α → Except Fault β} (h : ∀ a ∈ l, FaultsIn P (g a)) :
    FaultsIn P (l.mapM g) := by
  induction l with
  | nil => exact .ok trivial
  | cons a l ih =>
    rw [List.mapM_cons]
    refine .andThen (h a List.mem_cons_self) fun _ => ?_
    exact .andThen (ih fun b hb => h b (List.mem_cons_of_mem a hb)) fun _ => .ok trivial

inductive Fault.OfScalar : Tag → Fault → Prop where
  | notBoolean (word : Text) : OfScalar .bool (.notBoolean word)
  | noInteger : OfScalar .int .emptyNumber
  | notInteger (base : Nat) (part : Text) : OfScalar .int (.notInteger base part)
  | tooManyDigits {count : Nat} (h : digitLimit < count) : OfScalar .int (.tooManyDigits count)
  | noFloat : OfScalar .float .emptyNumber
  | notFloat (part : Text) : OfScalar .float (.notFloat part)
  | numberTooLarge : OfScalar .float .numberTooLarge
  | notTimestamp : OfScalar .timestamp .notTimestamp
  | year (year : Nat) : OfScalar .timestamp (.yearOutOfRange year)
  | month : OfScalar .timestamp .monthOutOfRange
  | day : OfScalar .timestamp .dayOutOfRange
  | time (field : TimeField) : OfScalar .timestamp (.timeOutOfRange field)
  | offset (negative : Bool) {minutes : Nat} (h : 24 * 60 ≤ minutes) :
    OfScalar .timestamp (.offsetTooLarge negative minutes)

/-- Only numbers beyond the limit have too many digits. -/
theorem digitLimit_lt_of_readInteger {base count : Nat} {cs : List Char}
    (h : readInteger base cs = .error (.tooManyDigits count)) : digitLimit < count := by
  unfold readInteger at h
  dsimp only at h
  split at h
  · cases h
  · rename_i digits _
    by_cases hlimit : base = 10 ∧ digitLimit < digits.length
    · rw [if_pos hlimit] at h
      cases h
      exact hlimit.2
    · rw [if_neg hlimit] at h
      split at h
      · cases h
      · cases h

theorem faultsIn_integerIn (base : Nat) (text : Text) :
    FaultsIn (Fault.OfScalar .int) (integerIn base text) := by
  refine ⟨fun f h _ => ?_, fun _ _ => trivial⟩
  obtain ⟨fault, hfault, rfl⟩ := Except.mapError_eq_error_iff.1 h
  cases fault with
  | malformed => exact .notInteger base _
  | tooManyDigits count => exact .tooManyDigits (digitLimit_lt_of_readInteger hfault)

/-- The faults of a text under the tag for integers are those of the tag. -/
theorem faultsIn_integerOf (text : Text) : FaultsIn (Fault.OfScalar .int) (integerOf text) := by
  unfold integerOf
  dsimp only
  refine .ite (fun _ => .error .noInteger) fun _ => ?_
  split
  · exact .ok trivial
  · exact .andThen (faultsIn_integerIn 2 _) fun _ => .ok trivial
  · exact .andThen (faultsIn_integerIn 16 _) fun _ => .ok trivial
  · exact .andThen (.error .noInteger) fun _ => .ok trivial
  · refine .ite (fun _ => .andThen (faultsIn_integerIn 8 _) fun _ => .ok trivial) fun _ => ?_
    refine .ite (fun _ => ?_) fun _ => .andThen (faultsIn_integerIn 10 _) fun _ => .ok trivial
    exact .andThen (.mapM fun part _ => faultsIn_integerIn 10 part) fun _ => .ok trivial

theorem faultsIn_floatIn (text : Text) : FaultsIn (Fault.OfScalar .float) (floatIn text) := by
  unfold floatIn
  split
  · exact .ok trivial
  · exact .error (.notFloat _)

/-- A unit that is too large for double precision is a fault of the tag. -/
theorem faultsIn_sumOfSixties (unit : Nat) (total : Float) (parts : List Float) :
    FaultsIn (Fault.OfScalar .float) (sumOfSixties unit total parts) := by
  induction parts generalizing unit total with
  | nil => exact .ok trivial
  | cons part parts ih => exact .ite (fun _ => .error .numberTooLarge) fun _ => ih _ _

/-- The faults of a text under the tag for floating-point numbers are those of the tag. -/
theorem faultsIn_floatOf (node : Nat) (text : Text) :
    FaultsIn (Fault.OfScalar .float) (floatOf node text) := by
  unfold floatOf
  dsimp only
  refine .ite (fun _ => .error .noFloat) fun _ => .ite (fun _ => .ok trivial) fun _ =>
    .ite (fun _ => .ok trivial) fun _ => .ite (fun _ => ?_) fun _ => ?_
  · exact .andThen (.mapM fun part _ => faultsIn_floatIn part) fun _ =>
      .andThen (faultsIn_sumOfSixties _ _ _) fun _ => .ok trivial
  · exact .andThen (faultsIn_floatIn _) fun _ => .ok trivial

theorem faultsIn_boolOf (text : Text) : FaultsIn (Fault.OfScalar .bool) (boolOf text) := by
  unfold boolOf
  split
  · exact .ok trivial
  · exact .error (.notBoolean _)

theorem faultsIn_bytesOf (text : Text) : FaultsIn P (bytesOf text) := by
  unfold bytesOf
  refine .ite (fun _ => ?_) fun _ => .malformed
  split
  · exact .ok trivial
  · exact .malformed

/-- A date that the calendar does not have is a fault of the tag. -/
theorem faultsIn_checkDate (date : Date) :
    FaultsIn (Fault.OfScalar .timestamp) (Timestamp.checkDate date) := by
  unfold Timestamp.checkDate
  exact .ite (fun _ => .error (.year _)) fun _ => .ite (fun _ => .error .month) fun _ =>
    .ite (fun _ => .error .day) fun _ => .ok trivial

theorem faultsIn_checkOffset (offset : Option (Bool × Nat)) :
    FaultsIn (Fault.OfScalar .timestamp) (Timestamp.checkOffset offset) := by
  unfold Timestamp.checkOffset
  split
  · exact .ok trivial
  · exact .ite (fun h => .error (.offset _ h)) fun _ => .ok trivial

theorem faultsIn_ofText (cs : List Char) :
    FaultsIn (Fault.OfScalar .timestamp) (Timestamp.ofText cs) := by
  unfold Timestamp.ofText
  split
  · exact .error .notTimestamp
  · exact (faultsIn_checkDate _).map _
  · refine .andThen (faultsIn_checkOffset _) fun _ => .andThen (faultsIn_checkDate _) fun _ => ?_
    exact .ite (fun _ => .error (.time .hour)) fun _ => .ite (fun _ => .error (.time .minute))
      fun _ => .ite (fun _ => .error (.time .second)) fun _ => .ok trivial

/-- A text that has no value under a tag does not fit it. -/
theorem faultsIn_scalarOf (node : Nat) (tag : Tag) (text : Text) :
    FaultsIn (Fault.OfScalar tag) (scalarOf node tag text) := by
  unfold scalarOf
  split
  · exact .ok trivial
  · exact (faultsIn_boolOf _).map _
  · exact (faultsIn_integerOf _).map _
  · exact faultsIn_floatOf _ _
  · exact (faultsIn_bytesOf _).map _
  · exact (faultsIn_ofText _).map _
  · exact .ok trivial
  · exact .malformed

end LetFun.Yaml
