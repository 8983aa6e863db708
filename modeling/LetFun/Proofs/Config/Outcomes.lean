import LetFun.Config.Load
import LetFun.Proofs.Config
import LetFun.Proofs.FileTree.Failures
import LetFun.Proofs.Utf8.Encoding
import LetFun.Proofs.Yaml.Construction
/-!
# Outcomes of loading settings

Loading settings changes nothing. It gives the settings that the file at the path asks for, or fails
with an error that says what is wrong with the path, the file, its text or its settings
(`load_outcome`). Not all of these errors are about the settings: those of bytes that are no text,
of scalars that have no value and of keys that cannot be named come from the layers below.
-/

namespace LetFun.Config

open FileAccess

variable {t : FileTree} {path : Path} {bytes : List UInt8} {text : String} {config : Config}
  {e : LoadError} {contents : Yaml.Contents}

/-! ## Contents -/

inductive Describes : Yaml.Contents → Config → Prop where
  | nothing : Describes (.value (.scalar .null)) {}
  | mapping {entries : List (Yaml.Scalar × Yaml.Value)} {config : Config}
    (h : AsksFor entries config) : Describes (.mapping entries) config

inductive Problem.Spoils : Yaml.Contents → Problem → Prop where
  | notMapping {v : Yaml.Value} (h : v ≠ .scalar .null) : Spoils (.value v) .notMapping
  | entries {entries : List (Yaml.Scalar × Yaml.Value)} {problem : Problem}
    (h : problem.HoldsOf entries) : Spoils (.mapping entries) problem

/-- A scalar other than null gives no settings, and neither does a list. -/
theorem ofContents_value_of_ne {v : Yaml.Value} (h : v ≠ .scalar .null) :
    ofContents (.value v) = .error .notMapping := by
  unfold ofContents
  split
  · rename_i hnull
    exact absurd (Yaml.Contents.value.inj hnull) h
  · rfl
  · rename_i hvalue
    cases hvalue

-- Whether a value is a null is decided by its form.
theorem eq_null_or_ne (v : Yaml.Value) : v = .scalar .null ∨ v ≠ .scalar .null := by
  cases v with
  | collection => exact .inr fun h => (nomatch h)
  | scalar s =>
    cases s with
    | null => exact .inl rfl
    | _ => exact .inr fun h => (nomatch h)

/-- A stream gives the settings that it asks for. -/
theorem ofContents_eq_ok_iff [CallStack] (h : Yaml.load text = .ok contents) :
    ofContents contents = .ok config ↔ Describes contents config := by
  cases contents with
  | mapping entries =>
    show ofEntries entries = .ok config ↔ _
    rw [ofEntries_eq_ok_iff (Yaml.hasDistinctKeys_of_load h).hasDistinctNames]
    constructor
    · exact .mapping
    · rintro (_ | hasks)
      exact hasks
  | value v =>
    rcases eq_null_or_ne v with rfl | hv
    · constructor
      · intro hok
        cases hok
        exact .nothing
      · rintro (_ | _)
        rfl
    · rw [ofContents_value_of_ne hv]
      constructor
      · exact fun hok => (nomatch hok)
      · rintro (_ | _)
        exact absurd rfl hv

/-- A stream that has a value gives the problem that spoils it. -/
theorem ofContents_eq_error_iff [CallStack] {problem : Problem}
    (h : Yaml.load text = .ok contents) :
    ofContents contents = .error problem ↔ problem.Spoils contents := by
  cases contents with
  | mapping entries =>
    show ofEntries entries = .error problem ↔ _
    rw [ofEntries_eq_error_iff (Yaml.hasDistinctKeys_of_load h).hasDistinctNames]
    constructor
    · exact .entries
    · rintro (_ | hholds)
      exact hholds
  | value v =>
    rcases eq_null_or_ne v with rfl | hv
    · constructor
      · exact fun herror => (nomatch herror)
      · rintro (hne | _)
        exact absurd rfl hne
    · rw [ofContents_value_of_ne hv]
      constructor
      · intro herror
        cases herror
        exact .notMapping hv
      · rintro (_ | _)
        rfl

/-! ## Files -/

def HasText (t : FileTree) (path : Path) (text : String) : Prop :=
  ∃ bytes, t.readBytes path = .ok bytes ∧ Utf8.decodeLines bytes = .ok text

inductive Sets [CallStack] (t : FileTree) (path : Path) (config : Config) : Prop where
  | intro {text : String} {contents : Yaml.Contents} (htext : HasText t path text)
    (hload : Yaml.load text = .ok contents) (hconfig : Describes contents config)

inductive LoadError.HoldsOf [CallStack] (t : FileTree) (path : Path) : LoadError → Prop where
  | nulInPath (h : path.hasNul = true) : HoldsOf t path .nulInPath
  | notFound (h : t.readBytes path = .error (.at path .notFound)) : HoldsOf t path (.notFound path)
  | unreadable {problem : FileProblem} (h : t.readBytes path = .error (.at path problem))
    (hne : problem ≠ .notFound) : HoldsOf t path (.unreadable (.at path problem))
  | encoding {bytes : List UInt8} {e : Utf8.DecodeError} (hbytes : t.readBytes path = .ok bytes)
    (h : Utf8.decode bytes = .error e) : HoldsOf t path (.encoding e)
  | malformed {text : String} (htext : HasText t path text)
    (h : Yaml.load text = .error .malformed) : HoldsOf t path (.malformed path)
  | value {text : String} {fault : Yaml.Fault} (htext : HasText t path text)
    (h : Yaml.load text = .error fault) (hne : fault ≠ .malformed) : HoldsOf t path (.value fault)
  | settings {text : String} {contents : Yaml.Contents} {problem : Problem}
    (htext : HasText t path text) (hload : Yaml.load text = .ok contents)
    (h : problem.Spoils contents) : HoldsOf t path (.settings path problem)

theorem runOn_load [CallStack] (t : FileTree) (path : Path) :
    runOn (load path) t =
      ((t.readBytes path).mapError (.ofFileError path) >>= ofBytes path, t) := by
  unfold load
  rw [runOn_bind, runOn_adapt, runOn_readBytes]
  cases t.readBytes path <;> rfl

/-- A file has the text that its bytes encode. -/
theorem hasText_iff (hbytes : t.readBytes path = .ok bytes) :
    HasText t path text ↔ Utf8.decodeLines bytes = .ok text := by
  unfold HasText
  simp only [hbytes, Except.ok.injEq, exists_eq_left']

/-- The bytes of a file give the settings that the file asks for. -/
theorem ofBytes_eq_ok_iff [CallStack] (hbytes : t.readBytes path = .ok bytes) :
    ofBytes path bytes = .ok config ↔ Sets t path config := by
  constructor
  · intro h
    obtain ⟨text, htext, h⟩ := Except.bind_eq_ok_iff.1 h
    obtain ⟨contents, hload, h⟩ := Except.bind_eq_ok_iff.1 h
    rw [Except.mapError_eq_ok_iff] at htext hload h
    exact ⟨(hasText_iff hbytes).2 htext, hload, (ofContents_eq_ok_iff hload).1 h⟩
  · rintro ⟨htext, hload, hconfig⟩
    apply Except.bind_eq_ok_iff.2
    refine ⟨_, Except.mapError_eq_ok_iff.2 ((hasText_iff hbytes).1 htext), ?_⟩
    apply Except.bind_eq_ok_iff.2
    refine ⟨_, Except.mapError_eq_ok_iff.2 hload, ?_⟩
    exact Except.mapError_eq_ok_iff.2 ((ofContents_eq_ok_iff hload).2 hconfig)

theorem decodeLines_eq_error_iff {error : Utf8.DecodeError} :
    Utf8.decodeLines bytes = .error error ↔ Utf8.decode bytes = .error error := by
  unfold Utf8.decodeLines
  cases Utf8.decode bytes <;> simp [Except.map]

/-- An error about the bytes of a file is true of it. -/
theorem holdsOf_of_ofBytes [CallStack] (hbytes : t.readBytes path = .ok bytes)
    (h : ofBytes path bytes = .error e) : e.HoldsOf t path := by
  rcases Except.bind_eq_error_iff.1 h with h | ⟨text, htext, h⟩
  · obtain ⟨error, herror, rfl⟩ := Except.mapError_eq_error_iff.1 h
    exact .encoding hbytes (decodeLines_eq_error_iff.1 herror)
  have htext := (hasText_iff hbytes).2 (Except.mapError_eq_ok_iff.1 htext)
  rcases Except.bind_eq_error_iff.1 h with h | ⟨contents, hload, h⟩
  · obtain ⟨fault, hfault, rfl⟩ := Except.mapError_eq_error_iff.1 h
    cases fault with
    | malformed => exact .malformed htext hfault
    | _ => exact .value htext hfault (by simp)
  · obtain ⟨problem, hproblem, rfl⟩ := Except.mapError_eq_error_iff.1 h
    have hload := Except.mapError_eq_ok_iff.1 hload
    exact .settings htext hload ((ofContents_eq_error_iff hload).1 hproblem)

theorem ofBytes_of_load_error [CallStack] {fault : Yaml.Fault}
    (hbytes : t.readBytes path = .ok bytes) (htext : HasText t path text)
    (h : Yaml.load text = .error fault) :
    ofBytes path bytes = .error (.ofFault path fault) := by
  rw [ofBytes, (hasText_iff hbytes).1 htext]
  show ((Yaml.load text).mapError (LoadError.ofFault path) >>= _) = _
  rw [h]
  rfl

theorem load_of_holdsOf [CallStack] (h : e.HoldsOf t path) :
    runOn (load path) t = (.error e, t) := by
  rw [runOn_load]
  cases h with
  | nulInPath hnul =>
    rw [FileTree.readBytes_of_hasNul hnul]
    rfl
  | notFound hread =>
    rw [hread]
    rfl
  | @unreadable problem hread hne =>
    rw [hread]
    cases problem with
    | notFound => exact absurd rfl hne
    | _ => rfl
  | encoding hbytes herror =>
    rw [hbytes]
    show (ofBytes path _, t) = _
    rw [ofBytes, decodeLines_eq_error_iff.2 herror]
    rfl
  -- From here on the file has a text, and what is wrong is said by the layers below.
  | malformed htext hfault =>
    obtain ⟨bytes, hbytes, hdecode⟩ := htext
    rw [hbytes]
    show (ofBytes path bytes, t) = _
    rw [ofBytes_of_load_error hbytes ⟨bytes, hbytes, hdecode⟩ hfault]
    rfl
  | @value text fault htext hfault hne =>
    obtain ⟨bytes, hbytes, hdecode⟩ := htext
    rw [hbytes]
    show (ofBytes path bytes, t) = _
    rw [ofBytes_of_load_error hbytes ⟨bytes, hbytes, hdecode⟩ hfault]
    cases fault with
    | malformed => exact absurd rfl hne
    | _ => rfl
  | settings htext hload hspoils =>
    obtain ⟨bytes, hbytes, hdecode⟩ := htext
    rw [hbytes]
    show (ofBytes path bytes, t) = _
    rw [ofBytes, hdecode]
    show ((Yaml.load _).mapError (LoadError.ofFault path) >>= _, t) = _
    rw [hload]
    show ((ofContents _).mapError (LoadError.settings path), t) = _
    rw [(ofContents_eq_error_iff hload).2 hspoils]
    rfl

theorem holdsOf_of_load [CallStack] (h : runOn (load path) t = (.error e, t)) :
    e.HoldsOf t path := by
  rw [runOn_load] at h
  rcases Except.bind_eq_error_iff.1 (congrArg Prod.fst h) with h | ⟨bytes, hbytes, h⟩
  · obtain ⟨error, herror, rfl⟩ := Except.mapError_eq_error_iff.1 h
    cases FileTree.concerns_of_readBytes herror with
    | nul hnul => exact .nulInPath hnul
    | problem problem =>
      cases problem with
      | notFound => exact .notFound herror
      | _ => exact .unreadable herror (by simp)
  · exact holdsOf_of_ofBytes (Except.mapError_eq_ok_iff.1 hbytes) h

/-- Loading fails with just the error that is true of the path and the tree. -/
theorem load_eq_error_iff [CallStack] : runOn (load path) t = (.error e, t) ↔ e.HoldsOf t path :=
  ⟨holdsOf_of_load, load_of_holdsOf⟩

/-- Loading gives just the settings that the file asks for. -/
theorem load_eq_ok_iff [CallStack] :
    runOn (load path) t = (.ok config, t) ↔ Sets t path config := by
  rw [runOn_load, Prod.mk.injEq, and_iff_left rfl]
  constructor
  · intro h
    obtain ⟨bytes, hbytes, h⟩ := Except.bind_eq_ok_iff.1 h
    exact (ofBytes_eq_ok_iff (Except.mapError_eq_ok_iff.1 hbytes)).1 h
  · rintro ⟨⟨bytes, hbytes, hdecode⟩, hload, hconfig⟩
    have hsets : Sets t path config := ⟨⟨bytes, hbytes, hdecode⟩, hload, hconfig⟩
    rw [hbytes]
    exact (ofBytes_eq_ok_iff hbytes).2 hsets

/-! ## Errors that are not about settings -/

/-- Loading settings from a path fails for a reason that the layers below report: the path holds the
character that no name may have, the file's bytes are not the encoding of a text, a scalar in it has
no value, or a key in it is a number with too many digits to be named. -/
inductive Escapes [CallStack] (t : FileTree) (path : Path) : Prop where
  | nul (h : path.hasNul = true)
  | undecodable {bytes : List UInt8} (hbytes : t.readBytes path = .ok bytes)
    (h : ∀ s, Utf8.encode s ≠ bytes)
  | valueless {text : String} {fault : Yaml.Fault} (htext : HasText t path text)
    (h : Yaml.load text = .error fault) (hne : fault ≠ .malformed)
  | unnamable {text : String} {entries : List (Yaml.Scalar × Yaml.Value)}
    {entry : Yaml.Scalar × Yaml.Value} (htext : HasText t path text)
    (hload : Yaml.load text = .ok (.mapping entries)) (hentry : entry ∈ entries)
    (h : entry.1.isShowable = false)

/-- Bytes cannot be decoded just if they encode no text. -/
theorem exists_decode_error_iff :
    (∃ error, Utf8.decode bytes = .error error) ↔ ∀ s, Utf8.encode s ≠ bytes := by
  constructor
  · rintro ⟨error, herror⟩ s hs
    rw [Utf8.decode_eq_ok_iff.2 hs] at herror
    cases herror
  · intro hno
    cases hdecode : Utf8.decode bytes with
    | ok s => exact absurd (Utf8.decode_eq_ok_iff.1 hdecode) (hno s)
    | error error => exact ⟨error, rfl⟩

/-- The failures that are not about the settings are the ones that `Escapes` lists. -/
theorem escapes_iff [CallStack] :
    Escapes t path ↔ ∃ e : LoadError, e.HoldsOf t path ∧ e.isConfigError = false := by
  constructor
  · rintro (hnul | ⟨hbytes, hno⟩ | ⟨htext, hfault, hne⟩ | ⟨htext, hload, hentry, hlong⟩)
    · exact ⟨_, .nulInPath hnul, rfl⟩
    · obtain ⟨error, herror⟩ := exists_decode_error_iff.2 hno
      exact ⟨_, .encoding hbytes herror, rfl⟩
    · exact ⟨_, .value htext hfault hne, rfl⟩
    · exact ⟨_, .settings htext hload (.entries (.unnamableField hentry hlong)), rfl⟩
  · rintro ⟨e, hholds, herror⟩
    cases hholds with
    | nulInPath hnul => exact .nul hnul
    | notFound => cases herror
    | unreadable => cases herror
    | encoding hbytes hdecode =>
      exact .undecodable hbytes (exists_decode_error_iff.1 ⟨_, hdecode⟩)
    | malformed => cases herror
    -- Of the errors that hold, four are not about the settings.
    | value htext hfault hne => exact .valueless htext hfault hne
    | settings htext hload hspoils =>
      cases hspoils with
      | notMapping => cases herror
      | entries hproblem =>
        cases hproblem with
        | unnamableField hentry hlong => exact .unnamable htext hload hentry hlong
        | unknownFields => cases herror
        | strictNotBoolean => cases herror
        | indentNotNatural => cases herror

/-- Loading settings changes nothing. It gives the settings that the file at the path asks for, or
fails with the error that says what is wrong. An error that is not about the settings arises exactly
if the path, the bytes, a scalar or a key is of a kind that the layers below refuse. One about the
bytes names the first place at which they are not the encoding of a text, and one about a value has
its cause in the characters, the tokens or a scalar of the text. -/
theorem load_outcome [CallStack] (t : FileTree) (path : Path) :
    ∃ r, runOn (load path) t = (r, t) ∧
      (∀ config, r = .ok config ↔ Sets t path config) ∧
      (∀ e, r = .error e ↔ e.HoldsOf t path) ∧
      ((∃ e, r = .error e ∧ e.isConfigError = false) ↔ Escapes t path) ∧
      (∀ e, r = .error (.encoding e) → ∃ bytes, t.readBytes path = .ok bytes ∧ e.Locates bytes) ∧
      ∀ fault, r = .error (.value fault) →
        ∃ text, HasText t path text ∧ fault ≠ .malformed ∧ fault.ComesFrom text := by
  obtain ⟨r, hrun⟩ : ∃ r, runOn (load path) t = (r, t) := ⟨_, runOn_load t path⟩
  have hok : ∀ config, r = .ok config ↔ Sets t path config := by
    intro config
    rw [← load_eq_ok_iff, hrun, Prod.mk.injEq, and_iff_left rfl]
  have herror : ∀ e, r = .error e ↔ e.HoldsOf t path := by
    intro e
    rw [← load_eq_error_iff, hrun, Prod.mk.injEq, and_iff_left rfl]
  refine ⟨r, hrun, hok, herror, ?_, fun e he => ?_, fun fault he => ?_⟩
  · simp only [herror, escapes_iff]
  · cases (herror _).1 he with
    | encoding hbytes hdecode => exact ⟨_, hbytes, Utf8.locates_of_decode hdecode⟩
  · cases (herror _).1 he with
    | value htext hfault hne => exact ⟨_, htext, hne, Yaml.comesFrom_of_load hfault hne⟩

def undecodableTree : FileTree :=
  ⟨[(["work"], .directory), (["work", "c"], .file [0xff])], ["work"]⟩

/-- A file of one byte that starts no character gives neither settings nor an error about them. -/
theorem undecodableTree_load : ¬ ∀ t path, (∃ config, runOn (load path) t = (.ok config, t)) ∨
    ∃ e, runOn (load path) t = (.error e, t) ∧ e.isConfigError = true := by
  intro h
  have hbytes : undecodableTree.readBytes ⟨0, ["c"]⟩ = .ok [0xff] := by rfl
  have hdecode : Utf8.decode [0xff] = .error ⟨0, 0xff, 1, .invalidStart⟩ := by rfl
  have hload := load_of_holdsOf (.encoding hbytes hdecode)
  rcases h undecodableTree ⟨0, ["c"]⟩ with ⟨config, hok⟩ | ⟨e, herror, he⟩
  · rw [hload] at hok
    cases hok
  · rw [hload] at herror
    cases herror
    cases he

end LetFun.Config
