import LetFun.Proofs.Artifact.Files
import LetFun.Proofs.Command.Inputs
/-!
# The command that parses

The command `parse` succeeds exactly if the source has a text, there are settings, the text has a
program, the program has an artifact, and the artifact can be written to the file that is named, if
one is (`parse_ends`). Where it does not succeed it prints nothing but a message, and changes no
file.
-/

namespace LetFun.Command

open FileAccess

variable {t t' : FileTree} {file : Path} {o : Options} {config : Config} {p : Program}
  {text : String} {arguments : List String} {outcome : Outcome} {r r' : Reading} {c c' : Command}
  {name : String}

/-! ## Requests -/

structure PathsNonempty (o : Options) : Prop where
  config : o.config ≠ some ""
  output : o.output ≠ some ""

theorem pathsNonempty_setOn (h : PathsNonempty o) (s : Switch) : PathsNonempty (setOn o s) := by
  cases s <;> exact ⟨h.config, h.output⟩

/-- An empty path sets nothing. -/
theorem pathsNonempty_of_setValue {s : Switch} {value : String} {o' : Options} (h : PathsNonempty o)
    (hset : setValue o s value = .ok o') : PathsNonempty o' := by
  have hpath : (if value = "" then none else some value) ≠ some "" := by
    by_cases hvalue : value = ""
    · rw [if_pos hvalue]
      exact fun hnone => (nomatch hnone)
    · rw [if_neg hvalue]
      exact fun hsome => hvalue (Option.some.inj hsome)
  unfold setValue at hset
  cases s with
  | config =>
    cases hset
    exact ⟨hpath, h.output⟩
  | output =>
    cases hset
    exact ⟨h.config, hpath⟩
  | indent =>
    obtain ⟨width, -, hset⟩ := Except.bind_eq_ok_iff.1 hset
    cases hset
    exact ⟨h.config, h.output⟩
  | help | strict | compact =>
    cases hset
    exact h

/-- No argument sets an empty path. -/
theorem pathsNonempty_of_readArguments {switches : List Switch} {as : List Argument}
    (h : PathsNonempty r.options) (hread : readArguments switches r as = .ok (some r')) :
    PathsNonempty r'.options := by
  fun_induction readArguments switches r as
  case case1 =>
    cases hread
    exact h
  -- Arguments with a value.
  case case10 ih | case11 ih | case12 ih =>
    obtain ⟨o', hset, hread⟩ := Except.bind_eq_ok_iff.1 hread
    exact ih o' (pathsNonempty_of_setValue h hset) hread
  case case13 => cases hread
  case case14 s _ _ _ ih =>
    obtain ⟨_, -, hread⟩ := Except.bind_eq_ok_iff.1 hread
    by_cases hhelp : s = .help
    · rw [if_pos hhelp] at hread
      cases hread
    · rw [if_neg hhelp] at hread
      exact ih (pathsNonempty_setOn h _) hread
  -- Arguments that set nothing.
  all_goals
    rename_i ih
    exact ih h hread

/-- A request to run a command has no empty paths. -/
theorem pathsNonempty_of_readCommand {unrecognized texts : List String}
    (h : readCommand c unrecognized texts = .ok (.run c' name o)) : PathsNonempty o := by
  unfold readCommand at h
  obtain ⟨as, -, h⟩ := Except.bind_eq_ok_iff.1 h
  obtain ⟨reading?, hread, h⟩ := Except.bind_eq_ok_iff.1 h
  cases reading? with
  | none => cases h
  | some r =>
    have hpaths : PathsNonempty r.options :=
      pathsNonempty_of_readArguments ⟨by decide, by decide⟩ (Except.mapError_eq_ok_iff.1 hread)
    dsimp only at h
    cases hfile : r.file with
    | none =>
      rw [hfile] at h
      cases h
    | some file =>
      rw [hfile] at h
      dsimp only at h
      by_cases hall : unrecognized ++ r.unrecognized = []
      · rw [if_pos hall] at h
        cases h
        exact hpaths
      · rw [if_neg hall] at h
        cases h

/-- A path on the command line that is empty counts as none. -/
theorem pathsNonempty_of_request (h : request arguments = .ok (.run c name o)) :
    PathsNonempty o := by
  -- Arguments without a meaning pile up on the way to the command, so the claim is about all of
  -- them.
  suffices hread : ∀ texts unrecognized, readRequest unrecognized texts = .ok (.run c name o) →
      PathsNonempty o from hread arguments [] h
  intro texts
  induction texts with
  | nil =>
    intro unrecognized h
    unfold readRequest at h
    by_cases hnil : unrecognized = []
    · rw [if_pos hnil] at h
      cases h
    · rw [if_neg hnil] at h
      cases h
  | cons text rest ih =>
    intro unrecognized h
    unfold readRequest at h
    by_cases hseparator : text = separatorText
    · rw [if_pos hseparator] at h
      by_cases hrest : rest = []
      · rw [if_pos hrest] at h
        exact ih _ h
      · rw [if_neg hrest] at h
        cases h
    · rw [if_neg hseparator] at h
      obtain ⟨a, -, h⟩ := Except.bind_eq_ok_iff.1 h
      cases a with
      | switch s attached =>
        obtain ⟨_, -, hhelp⟩ := Except.map_eq_ok_iff.1 h
        cases hhelp
      | unknown _ => exact ih _ h
      | plain _ | separator =>
        dsimp only at h
        cases hname : ofName? text with
        | none =>
          rw [hname] at h
          cases h
        | some command =>
          rw [hname] at h
          exact pathsNonempty_of_readCommand h

/-! ## Artifacts -/

inductive Indents (o : Options) (config : Config) : Option Nat → Prop where
  | compact (h : o.compact = true) : Indents o config none
  | given {width : Nat} (hwide : o.compact = false) (h : o.indent = some width) :
    Indents o config (some width)
  | settings (hwide : o.compact = false) (h : o.indent = none) : Indents o config config.indent

/-- The width for an artifact is computed as `Indents` says. -/
theorem indents_iff {width : Option Nat} :
    Indents o config width ↔ width = indentFor o config := by
  unfold indentFor
  constructor
  · intro h
    cases h with
    | compact hcompact => rw [if_pos hcompact]
    | given hwide hindent =>
      rw [if_neg (by simp [hwide]), hindent]
      rfl
    | settings hwide hindent =>
      rw [if_neg (by simp [hwide]), hindent]
      rfl
  · rintro rfl
    by_cases hcompact : o.compact = true
    · rw [if_pos hcompact]
      exact .compact hcompact
    · rw [if_neg hcompact]
      have hwide : o.compact = false := by simpa using hcompact
      cases hindent : o.indent with
      | none => exact .settings hwide hindent
      | some width => exact .given hwide hindent

def HasText [CallStack] (o : Options) (config : Config) (p : Program) (text : String) : Prop :=
  ∃ width, Indents o config width ∧ Artifact.serialize p (width.map Int.ofNat) = .ok text

/-- A program has an artifact if it can be serialized with the width for it. -/
theorem hasText_iff [CallStack] : HasText o config p text ↔
    Artifact.serialize p ((indentFor o config).map Int.ofNat) = .ok text := by
  unfold HasText
  simp only [indents_iff, exists_eq_left]

def writtenReport (p : Program) (path : Path) : String :=
  s!"Wrote {p.body.length} declaration(s) to '{path.text}'.\n"

/-- An artifact is printed if no file is named. Else it is written to the file, once the directories
on the way to it are made. -/
inductive Emits (t : FileTree) (o : Options) (p : Program) (text : String) :
    Outcome → FileTree → Prop where
  | printed (h : o.output = none) : Emits t o p text (.succeed (text ++ "\n")) t
  | written {name : String} {opened t' : FileTree} (h : o.output = some name)
    (hopen : runOn (makeDirectories (Path.ofString name).parent) t = (.ok (), opened))
    (hwrite : opened.writeBytes (Path.ofString name) (Utf8.encode text) = .ok t') :
    Emits t o p text (.succeed (writtenReport p (Path.ofString name))) t'

/-- Without the name of a file the artifact is printed, and the tree stays as it is. -/
theorem emits_iff_of_none (h : o.output = none) :
    Emits t o p text outcome t' ↔ outcome = .succeed (text ++ "\n") ∧ t' = t := by
  constructor
  · rintro (_ | ⟨hsome, -, -⟩)
    · exact ⟨rfl, rfl⟩
    · rw [h] at hsome
      cases hsome
  · rintro ⟨rfl, rfl⟩
    exact .printed h

/-- With the name of a file the directories on the way to it are made and then the file is
written. -/
theorem emits_iff_of_some (h : o.output = some name) :
    Emits t o p text outcome t' ↔ outcome = .succeed (writtenReport p (Path.ofString name)) ∧
      ∃ opened, runOn (makeDirectories (Path.ofString name).parent) t = (.ok (), opened) ∧
        opened.writeBytes (Path.ofString name) (Utf8.encode text) = .ok t' := by
  constructor
  · rintro (hnone | ⟨hsome, hopen, hwrite⟩)
    · rw [h] at hnone
      cases hnone
    · rw [h] at hsome
      cases hsome
      exact ⟨rfl, _, hopen, hwrite⟩
  · rintro ⟨rfl, opened, hopen, hwrite⟩
    exact .written h hopen hwrite

/-- Strictness has no influence on the artifact of a program. -/
theorem hasText_withStrict [CallStack] :
    HasText o (withStrict o config) p text ↔ HasText o config p text := by
  rw [hasText_iff, hasText_iff]
  exact Iff.rfl

/-- What may be left of a tree where no artifact is given out: the tree, with directories on the way
to the file that is named, if one is. -/
structure Leaves (t : FileTree) (o : Options) (t' : FileTree) : Prop where
  same : o.output = none → t' = t
  opens : ∀ name, o.output = some name → t.Opens (Path.ofString name).parent t'

theorem Leaves.refl (t : FileTree) (o : Options) : Leaves t o t :=
  ⟨fun _ => rfl, fun _ _ => .refl _ t⟩

theorem isReport_ofWriteError (e : Artifact.WriteError) : (ofWriteError e).IsReport := by
  cases e with
  | widthTooLarge => exact .fail _
  | _ => exact .refuse _

theorem isReport_ofStoreError (path : Path) (e : Artifact.StoreError) :
    (ofStoreError path e).IsReport := by
  cases e with
  | text e => exact isReport_ofWriteError e
  | file e => cases e <;> exact .refuse _

/-- Giving out an artifact comes to what `Emits` says, and what is left after a failure are
directories at most. -/
theorem ends_emit [CallStack] (t : FileTree) (o : Options) (config : Config) (p : Program) :
    Ends (fun outcome u => ∃ text, HasText o config p text ∧ Emits t o p text outcome u)
      (Leaves t o) (runOn (emit p o config) t) := by
  simp only [hasText_iff]
  unfold emit
  generalize (indentFor o config).map Int.ofNat = indent
  cases houtput : o.output with
  | none =>
    simp only [emits_iff_of_none houtput]
    cases htext : Artifact.serialize p indent with
    | error e =>
      apply Ends.of_report (isReport_ofWriteError e)
      · rintro outcome u ⟨text, htext, -⟩
        cases htext
      · exact .refl t o
    | ok text =>
      apply Ends.ok
      intro outcome u
      simp
  | some name =>
    simp only [emits_iff_of_some houtput]
    -- Storing fails for the directories, for the text or for the file, in this order.
    show Ends _ _ (runOn ((Artifact.store p (Path.ofString name) indent).adapt _ >>= _) t)
    rw [runOn_bind, runOn_adapt]
    rcases hstore : runOn (Artifact.store p (Path.ofString name) indent) t with ⟨r, t'⟩
    cases r with
    | error e =>
      apply Ends.of_report (isReport_ofStoreError _ e)
      · rintro outcome u ⟨text, htext, -, opened, hopen, hwrite⟩
        rw [Artifact.store_eq_ok_iff.2 ⟨opened, text, hopen, htext, hwrite⟩] at hstore
        cases congrArg Prod.fst hstore
      · refine ⟨fun hnone => ?_, fun name' hname' => ?_⟩
        · rw [houtput] at hnone
          cases hnone
        · rw [houtput] at hname'
          cases hname'
          exact Artifact.opens_of_store_error hstore
    | ok u =>
      apply Ends.ok
      intro outcome u
      constructor
      · rintro ⟨text, htext, rfl, opened, hopen, hwrite⟩
        rw [Artifact.store_eq_ok_iff.2 ⟨opened, text, hopen, htext, hwrite⟩] at hstore
        exact ⟨rfl, congrArg Prod.snd hstore⟩
      · rintro ⟨rfl, rfl⟩
        obtain ⟨opened, text, hopen, htext, hwrite⟩ := Artifact.store_eq_ok_iff.1 hstore
        exact ⟨text, htext, rfl, opened, hopen, hwrite⟩

/-! ## Whole runs -/

/-- A source file has a text, and there are settings for it; the text has a program, and the program
an artifact. -/
structure Translates [CallStack] (t : FileTree) (file : Path) (o : Options) (source : String)
    (config : Config) (p : Program) (text : String) : Prop where
  reads : Reads t file o source config
  program : LetFun.parseSource source (o.strict || config.strict) = .ok p
  text : HasText o config p text

/-- The whole command is its steps one after the other, so it comes to what they come to
together. -/
theorem ends_parse [CallStack] (t : FileTree) (file : Path) (o : Options) :
    Ends (fun outcome u => ∃ source config p text, Translates t file o source config p text ∧
      Emits t o p text outcome u) (Leaves t o) (runOn (execute .parse file o) t) := by
  apply ((decides_loadSource t file o).ends_bind (.refl t o) (R := fun r outcome u =>
    ∃ p, LetFun.parseSource r.1 r.2.strict = .ok p ∧ ∃ text, HasText o r.2 p text ∧
      Emits t o p text outcome u) ?_).congr
  · intro outcome u
    constructor
    · rintro ⟨⟨source, _⟩, ⟨config, hreads, rfl⟩, p, hp, text, htext, hemits⟩
      exact ⟨source, config, p, text, ⟨hreads, hp, hasText_withStrict.1 htext⟩, hemits⟩
    · rintro ⟨source, config, p, text, h, hemits⟩
      exact ⟨(source, withStrict o config), ⟨config, h.reads, rfl⟩, p, h.program, text,
        hasText_withStrict.2 h.text, hemits⟩
  · rintro ⟨source, config⟩ -
    apply Decides.ends_bind _ (.refl t o) (fun p _ => ends_emit t o config p)
    apply Decides.mk_pure
    exact .of_mapError (fun _ => .refuse _) _

/-- Writing a file makes it hold the bytes written, and no other file changes. -/
theorem Emits.files {written : String} (h : Emits t o p text outcome t')
    (houtput : o.output = some written) :
    t'.readBytes (Path.ofString written) = .ok (Utf8.encode text) ∧
      ∀ l bytes, t'.locate (Path.ofString written) ≠ .ok l →
        (t'.get? l = some (.file bytes) ↔ t.get? l = some (.file bytes)) := by
  obtain ⟨-, opened, hopen, hwrite⟩ := (emits_iff_of_some houtput).1 h
  refine ⟨FileTree.readBytes_of_writeBytes hwrite, fun l bytes hl => ?_⟩
  have hopens := opensOnly_makeDirectories (Path.ofString written).parent t
  rw [hopen] at hopens
  rw [← hopens.get?_eq_file_iff]
  obtain ⟨place, hplace, hfree, rfl⟩ := FileTree.writeBytes_eq_ok_iff.1 hwrite
  have hne : l ≠ place := by
    rintro rfl
    exact hl ((FileTree.keepsDirectories_put hfree _).locate hplace)
  rw [FileTree.get?_put (FileTree.ne_nil_of_get?_ne hfree), if_neg hne]

/-- A run without an artifact leaves all files as they are. -/
theorem Leaves.get?_eq_file_iff (h : Leaves t o t') (l : Location) (bytes : List UInt8) :
    t'.get? l = some (.file bytes) ↔ t.get? l = some (.file bytes) := by
  cases houtput : o.output with
  | none => rw [h.same houtput]
  | some written => exact (h.opens written houtput).get?_eq_file_iff l bytes

/-- Where an artifact is given out, the program ends well. -/
theorem Emits.outcome_eq (h : Emits t o p text outcome t') :
    ∃ output, outcome = .succeed output := by
  cases h with
  | printed => exact ⟨_, rfl⟩
  | written => exact ⟨_, rfl⟩

/-- The command `parse` ends with exit code 0 exactly if the source has a text, there are settings
for it, the text has a program, the program has an artifact, and the artifact can be given out. Then
the text of the artifact is printed, or it is all that the file that is named holds, and no other
file changes. In every other case in which there is an exit code it is 1: nothing is printed but one
message, no file changes, and nothing else does but directories on the way to the file that is
named. -/
theorem parse_ends [CallStack] {code : Nat}
    (hrequest : request arguments = .ok (.run .parse name o))
    (hrun : runIn arguments t = (outcome, t')) (hexit : outcome.ending = .exit code) :
    o.config ≠ some "" ∧ o.output ≠ some "" ∧
    (code = 0 ↔ ∃ source config p text, Translates t (Path.ofString name) o source config p text ∧
      ∃ outcome' u, Emits t o p text outcome' u) ∧
    (code = 0 → outcome.errors = "" ∧ ∃ source config p text,
      Translates t (Path.ofString name) o source config p text ∧
      (o.output = none → outcome.output = text ++ "\n" ∧ t' = t) ∧
      ∀ written, o.output = some written →
        t'.readBytes (Path.ofString written) = .ok (Utf8.encode text) ∧
        ∀ l bytes, t'.locate (Path.ofString written) ≠ .ok l →
          (t'.get? l = some (.file bytes) ↔ t.get? l = some (.file bytes))) ∧
    (code ≠ 0 → code = 1 ∧ outcome.output = "" ∧
      (∃ message, outcome.errors = "Error: " ++ message ++ "\n") ∧
      (∀ l bytes, t'.get? l = some (.file bytes) ↔ t.get? l = some (.file bytes)) ∧
      (o.output = none → t' = t) ∧
      ∀ written, o.output = some written → t.Opens (Path.ofString written).parent t') := by
  obtain ⟨hconfig, houtput⟩ := pathsNonempty_of_request hrequest
  refine ⟨hconfig, houtput, ?_⟩
  rw [runIn_eq hrequest] at hrun
  -- What the steps come to is known before the exit code is looked at.
  have hends := ends_parse t (Path.ofString name) o
  generalize runOn (execute .parse (Path.ofString name) o) t = run at hends hrun
  cases hends with
  | @ok result left hok =>
    cases hrun
    obtain ⟨source, config, p, text, htranslates, hemits⟩ := (hok outcome t').2 ⟨rfl, rfl⟩
    obtain ⟨output, rfl⟩ := hemits.outcome_eq
    cases hexit
    refine ⟨⟨fun _ => ⟨source, config, p, text, htranslates, _, _, hemits⟩, fun _ => rfl⟩,
      fun _ => ⟨rfl, source, config, p, text, htranslates, fun hnone => ?_, fun _ => hemits.files⟩,
      fun hne => absurd rfl hne⟩
    obtain ⟨hprinted, hsame⟩ := (emits_iff_of_none hnone).1 hemits
    exact ⟨congrArg Outcome.output hprinted, hsame⟩
  -- A refusal says that there is nothing to emit, so no artifact can have been given out.
  | @refuse message left hnone hleft =>
    cases hrun
    cases hexit
    refine ⟨⟨fun h => (nomatch h), ?_⟩, fun h => (nomatch h), fun _ => ⟨rfl, rfl, ⟨message, rfl⟩,
      hleft.get?_eq_file_iff, hleft.same, hleft.opens⟩⟩
    rintro ⟨source, config, p, text, htranslates, outcome', u, hemits⟩
    exact absurd ⟨source, config, p, text, htranslates, hemits⟩ (hnone outcome' u)
  | @fail cause left hleft =>
    cases hrun
    cases hexit

def sourceTree : FileTree :=
  ⟨[(["work"], .directory),
    (["work", "a.let"],
      .file (Utf8.encode "let f = function(x) \x7b\r\n  let g = function(y) \x7b@\x7d\r\n\x7d"))],
    ["work"]⟩

def sourceArguments : List String :=
  ["parse", "a.let", "--indent", "0", "-oout/b"]

theorem sourceTree_parse_ends :
    request sourceArguments =
        .ok (.run .parse "a.let" { indent := some 0, output := some "out/b" }) ∧
      ∃ outcome tree, runIn sourceArguments sourceTree = (outcome, tree) ∧
        outcome.ending = .exit 0 ∧ outcome.errors = "" ∧ ∃ source config p text,
          Translates sourceTree (Path.ofString "a.let")
            { indent := some 0, output := some "out/b" } source config p text ∧
          tree.readBytes (Path.ofString "out/b") = .ok (Utf8.encode text) := by
  have hrequest : request sourceArguments =
      .ok (.run .parse "a.let" { indent := some 0, output := some "out/b" }) := by rfl
  have hexit : (runIn sourceArguments sourceTree).1.ending = .exit 0 := by decide +kernel
  rcases hrun : runIn sourceArguments sourceTree with ⟨outcome, tree⟩
  rw [hrun] at hexit
  obtain ⟨herrors, source, config, p, text, htranslates, -, hfiles⟩ :=
    (parse_ends hrequest hrun hexit).2.2.2.1 rfl
  exact ⟨hrequest, outcome, tree, rfl, hexit, herrors, source, config, p, text, htranslates,
    (hfiles "out/b" rfl).1⟩

end LetFun.Command
