import LetFun.Proofs.Artifact.Frame
import LetFun.Proofs.Command.Parse
import LetFun.Proofs.Config
import LetFun.Proofs.Reparsing
/-!
# Widths that are too large

Settings and command lines take every natural number for the width of an artifact. A width below
2^63 gives every program a text, which is given out unless the file system refuses it; a larger one
gives no program a text, and the command `parse` ends without an exit code (`width_usable_iff`).
-/

namespace LetFun

variable {p : Program} {n : Nat} {text : String}

/-! ## Texts -/

namespace Artifact

theorem layoutOf_of_lt (h : n < 2 ^ 63) : layoutOf (some n) = .ok (.indented n) := by
  have hwidth : (-0x8000000000000000 : Int) ≤ n ∧ (n : Int) < 0x8000000000000000 := by omega
  rw [layoutOf, if_pos hwidth, Int.toNat_natCast]

theorem layoutOf_of_le (h : 2 ^ 63 ≤ n) : layoutOf (some n) = .error .widthTooLarge := by
  have hwidth : ¬((-0x8000000000000000 : Int) ≤ n ∧ (n : Int) < 0x8000000000000000) := by omega
  rw [layoutOf, if_neg hwidth]

/-- A width below `2 ^ 63` can be used with every program that is not nested too deeply. -/
theorem serialize_of_lt [CallStack] (hdepth : p.depth ≤ 100)
    (hspans : ∀ m ∈ p.walk, m.span.IsShowable)
    (h : n < 2 ^ 63) : ∃ text, serialize p (some n) = .ok text ∧ deserialize text = .ok p := by
  have htext := serialize_eq_ok hdepth hspans (layoutOf_of_lt h)
  exact ⟨_, htext, deserialize_of_serialize hspans htext⟩

/-- A width from `2 ^ 63` on can be used with none. -/
theorem serialize_of_le [CallStack] (hdepth : p.depth ≤ 100) (h : 2 ^ 63 ≤ n) :
    serialize p (some n) = .error .widthTooLarge := by
  have hdumped := CallStack.dumped_ge
  rw [serialize, if_neg (by omega), layoutOf_of_le h]
  rfl

end Artifact

namespace Command

open FileAccess

variable {t t' : FileTree} {o : Options} {config : Config} {source name : String}
  {arguments : List String} {outcome : Outcome} {file : Path} {width : Option Nat}

/-! ## Ends of the command -/

/-- A command line asks for the artifact of a program with a width: the source file that it names
has been read, and its text has the program. -/
inductive Wants [CallStack] (arguments : List String) (t : FileTree) (o : Options) (p : Program)
    (width : Option Nat) : Prop where
  | intro {name source : String} {config : Config}
    (hrequest : request arguments = .ok (.run .parse name o))
    (hload : runOn (loadSource (Path.ofString name) o) t = (.ok (source, config), t))
    (hprogram : LetFun.parseSource source config.strict = .ok p) (hwidth : Indents o config width)

inductive Delivers (t : FileTree) (o : Options) (p : Program) (text : String) :
    Outcome → FileTree → Prop where
  | emitted {outcome : Outcome} {t' : FileTree} (h : Emits t o p text outcome t') :
    Delivers t o p text outcome t'
  | unwritable {written message : String} {t' : FileTree} (h : o.output = some written)
    (hfile : ¬ ∃ opened u,
      runOn (makeDirectories (Path.ofString written).parent) t = (.ok (), opened) ∧
        opened.writeBytes (Path.ofString written) (Utf8.encode text) = .ok u)
    (hleft : Leaves t o t') : Delivers t o p text (.refuse message) t'

/-- The command ends without an exit code because a width is too large, or earlier with a message
because the directories on the way to the file cannot be made. -/
inductive Overflows (t : FileTree) (o : Options) : Outcome → FileTree → Prop where
  | failed {t' : FileTree} (hleft : Leaves t o t') :
    Overflows t o (.fail (.program .widthTooLarge)) t'
  | unopened {written message : String} {f : FileError} {t' : FileTree}
    (h : o.output = some written)
    (hopen : runOn (makeDirectories (Path.ofString written).parent) t = (.error f, t'))
    (hleft : Leaves t o t') : Overflows t o (.refuse message) t'

/-- What remains to be done once the source has been read and parsed. -/
theorem runOn_execute_parse [CallStack]
    (hload : runOn (loadSource file o) t = (.ok (source, config), t))
    (hprogram : LetFun.parseSource source config.strict = .ok p) :
    runOn (execute .parse file o) t = runOn (emit p o config) t := by
  have hparse : Command.parseSource source config = .ok p := by
    rw [Command.parseSource, hprogram]
    rfl
  unfold execute
  rw [runOn_bind, hload]
  show runOn (ExceptT.mk (pure (Command.parseSource source config)) >>= fun p => emit p o config) t
    = _
  rw [hparse]
  rfl

-- What storing makes of a tree is left, also where it fails.
theorem leaves_of_store_error [CallStack] {indent : Option Int} {e : Artifact.StoreError}
    (houtput : o.output = some name)
    (hstore : runOn (Artifact.store p (Path.ofString name) indent) t = (.error e, t')) :
    Leaves t o t' := by
  constructor
  · intro hnone
    rw [houtput] at hnone
    cases hnone
  · intro name' hname'
    rw [houtput] at hname'
    cases hname'
    exact Artifact.opens_of_store_error hstore

theorem exists_refuse_ofStoreError (path : Path) (f : FileError) :
    ∃ message, ofStoreError path (.file f) = .refuse message := by
  cases f with
  | nulInPath => exact ⟨_, rfl⟩
  | «at» q problem => exact ⟨_, rfl⟩

/-- Where a program has a text, it is given out or its file cannot be written. -/
theorem delivers_emit [CallStack] (hwidth : indentFor o config = some n)
    (htext : Artifact.serialize p (some n) = .ok text)
    (hrun : handOut (runOn (emit p o config) t) = (outcome, t')) :
    Delivers t o p text outcome t' := by
  unfold emit at hrun
  rw [hwidth] at hrun
  change Artifact.serialize p ((some n).map Int.ofNat) = _ at htext
  cases houtput : o.output with
  | none =>
    rw [houtput] at hrun
    dsimp only at hrun
    rw [htext] at hrun
    cases hrun
    exact .emitted (.printed houtput)
  | some name =>
    rw [houtput] at hrun
    dsimp only at hrun
    rw [runOn_bind, runOn_adapt] at hrun
    rcases hstore : runOn (Artifact.store p (Path.ofString name) ((some n).map Int.ofNat)) t
      with ⟨r, left⟩
    rw [hstore] at hrun
    cases r with
    | ok u =>
      cases hrun
      obtain ⟨opened, text', hopen, htext', hwrite⟩ := Artifact.store_eq_ok_iff.1 hstore
      rw [htext] at htext'
      cases htext'
      exact .emitted (.written houtput hopen hwrite)
    | error e =>
      -- The artifact has a text, so it can only be the file that fails.
      obtain ⟨f, rfl⟩ := Artifact.exists_file_of_store_error htext hstore
      obtain ⟨message, hmessage⟩ := exists_refuse_ofStoreError (Path.ofString name) f
      change (ofStoreError (Path.ofString name) (.file f), left) = _ at hrun
      rw [hmessage] at hrun
      cases hrun
      apply Delivers.unwritable houtput _ (leaves_of_store_error houtput hstore)
      rintro ⟨opened, u, hopen, hwrite⟩
      rw [Artifact.store_eq_ok_iff.2 ⟨opened, text, hopen, htext, hwrite⟩] at hstore
      cases congrArg Prod.fst hstore

/-- Where a width is too large, nothing is given out. -/
theorem overflows_emit [CallStack] (hwidth : indentFor o config = some n)
    (htext : Artifact.serialize p (some n) = .error .widthTooLarge)
    (hrun : handOut (runOn (emit p o config) t) = (outcome, t')) : Overflows t o outcome t' := by
  unfold emit at hrun
  rw [hwidth] at hrun
  change Artifact.serialize p ((some n).map Int.ofNat) = _ at htext
  cases houtput : o.output with
  | none =>
    rw [houtput] at hrun
    dsimp only at hrun
    rw [htext] at hrun
    cases hrun
    exact .failed (.refl t o)
  | some name =>
    rw [houtput] at hrun
    dsimp only at hrun
    rw [runOn_bind, runOn_adapt] at hrun
    obtain ⟨e, left, hstore, hwhy⟩ :=
      Artifact.store_of_serialize_error (Path.ofString name) t htext
    rw [hstore] at hrun
    have hleft := leaves_of_store_error houtput hstore
    -- The directories come before the text, so they may be what fails.
    rcases hwhy with rfl | ⟨f, rfl, hopen⟩
    · cases hrun
      exact .failed hleft
    · obtain ⟨message, hmessage⟩ := exists_refuse_ofStoreError (Path.ofString name) f
      change (ofStoreError (Path.ofString name) (.file f), left) = _ at hrun
      rw [hmessage] at hrun
      cases hrun
      exact .unopened houtput hopen hleft

/-- A width below 2^63 gives a program a text, from which the program is read back, and the command
`parse` gives the text out if the file for it can be written. A larger width gives no text; the
command then ends without an exit code, nothing is printed and no file is written. -/
theorem width_usable_iff [CallStack] (hdepth : p.depth ≤ 100)
    (hspans : ∀ m ∈ p.walk, m.span.IsShowable)
    (n : Nat) :
    ((∃ text, Artifact.serialize p (some n) = .ok text) ↔ n < 2 ^ 63) ∧
    (n < 2 ^ 63 → ∃ text, Artifact.serialize p (some n) = .ok text ∧
      Artifact.deserialize text = .ok p ∧
      ∀ arguments t o outcome t', Wants arguments t o p (some n) →
        runIn arguments t = (outcome, t') → Delivers t o p text outcome t') ∧
    (2 ^ 63 ≤ n → Artifact.serialize p (some n) = .error .widthTooLarge ∧
      ∀ arguments t o outcome t', Wants arguments t o p (some n) →
        runIn arguments t = (outcome, t') → Overflows t o outcome t') := by
  refine ⟨⟨fun ⟨text, htext⟩ => ?_, fun hn => ?_⟩, fun hn => ?_, fun hn => ?_⟩
  · rcases Nat.lt_or_ge n (2 ^ 63) with hn | hn
    · exact hn
    · rw [Artifact.serialize_of_le hdepth hn] at htext
      cases htext
  · obtain ⟨text, htext, -⟩ := Artifact.serialize_of_lt hdepth hspans hn
    exact ⟨text, htext⟩
  · obtain ⟨text, htext, hread⟩ := Artifact.serialize_of_lt hdepth hspans hn
    refine ⟨text, htext, hread, ?_⟩
    rintro arguments t o outcome t' ⟨hrequest, hload, hprogram, hwidth⟩ hrun
    rw [runIn_eq hrequest, runOn_execute_parse hload hprogram] at hrun
    exact delivers_emit (indents_iff.1 hwidth).symm htext hrun
  · have htext := Artifact.serialize_of_le hdepth hn
    refine ⟨htext, ?_⟩
    rintro arguments t o outcome t' ⟨hrequest, hload, hprogram, hwidth⟩ hrun
    rw [runIn_eq hrequest, runOn_execute_parse hload hprogram] at hrun
    exact overflows_emit (indents_iff.1 hwidth).symm htext hrun

def laidOutTree : FileTree :=
  ⟨[(["work"], .directory), (["work", "a.let"], .file (Utf8.encode laidOutSource))], ["work"]⟩

def widthArguments (width : String) : List String :=
  ["parse", "a.let", "--indent", width]

theorem wants_laidOutTree {width : String}
    (hrequest : request (widthArguments width) = .ok (.run .parse "a.let" { indent := some n }))
    (hload : (runOn (loadSource (Path.ofString "a.let") { indent := some n })
      laidOutTree).1.toOption = some (laidOutSource, {})) :
    Wants (widthArguments width) laidOutTree { indent := some n } laidOutProgram (some n) := by
  obtain ⟨r, hrun, -⟩ := decides_loadSource laidOutTree (Path.ofString "a.let") { indent := some n }
  rw [hrun] at hload
  cases r with
  | error e => cases hload
  | ok loaded =>
    cases hload
    exact ⟨hrequest, hrun, by decide +kernel, .given rfl rfl⟩

theorem laidOutTree_width_usable :
    laidOutProgram.depth ≤ 100 ∧ (∀ m ∈ laidOutProgram.walk, m.span.IsShowable) ∧
      Wants (widthArguments "1") laidOutTree { indent := some 1 } laidOutProgram (some 1) ∧
      ∃ text, Artifact.serialize laidOutProgram (some 1) = .ok text ∧
        Delivers laidOutTree { indent := some 1 } laidOutProgram text
          (runIn (widthArguments "1") laidOutTree).1
          (runIn (widthArguments "1") laidOutTree).2 := by
  have hdepth : laidOutProgram.depth ≤ 100 := by decide
  have hspans : ∀ m ∈ laidOutProgram.walk, m.span.IsShowable := by decide +kernel
  have hwants : Wants (widthArguments "1") laidOutTree { indent := some 1 } laidOutProgram
      (some 1) := wants_laidOutTree (by rfl) (by decide +kernel)
  obtain ⟨text, htext, -, hdelivers⟩ := (width_usable_iff hdepth hspans 1).2.1 (by decide)
  exact ⟨hdepth, hspans, hwants, text, htext, hdelivers _ _ _ _ _ hwants rfl⟩

/-- The settings and the command line take a width that is too large. -/
theorem laidOutTree_width_not_usable :
    Config.ofEntries [(.text Config.indentField, .scalar (.integer (2 ^ 63 : Nat)))] =
        .ok { indent := some (2 ^ 63) } ∧
      Wants (widthArguments "9223372036854775808") laidOutTree { indent := some (2 ^ 63) }
        laidOutProgram (some (2 ^ 63)) ∧
      (runIn (widthArguments "9223372036854775808") laidOutTree).1 =
        .fail (.program .widthTooLarge) ∧
      ¬ ∃ text, Artifact.serialize laidOutProgram (some (2 ^ 63 : Nat)) = .ok text := by
  have hdepth : laidOutProgram.depth ≤ 100 := by decide
  refine ⟨Config.ofEntries_natural _, wants_laidOutTree (by rfl) (by decide +kernel),
    by decide +kernel, ?_⟩
  rintro ⟨text, htext⟩
  rw [Artifact.serialize_of_le hdepth (Nat.le_refl _)] at htext
  cases htext

end Command

end LetFun
