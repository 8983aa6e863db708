import LetFun.Proofs.Command.Steps
/-!
# What commands read

The first steps of a command settle the text of the source file and its settings
(`decides_loadSource`). The settings are those in the file that is named, or in the file beside the
source, or the defaults (`Configures`).
-/

namespace LetFun.Command

open FileAccess

variable {t : FileTree} {file path : Path}

/-! ## Settings -/

def Loads [CallStack] (t : FileTree) (path : Path) (config : Config) : Prop :=
  ∃ bytes, t.readBytes path = .ok bytes ∧ Config.ofBytes path bytes = .ok config

def besidePath (t : FileTree) (file : Path) : Path :=
  (t.absolute file).parent.child Config.fileName

/-- The settings for a source file are those in the file that is named, or else those in the file
beside the source, or else the defaults. -/
inductive Configures [CallStack] (t : FileTree) (file : Path) : Option String → Config → Prop where
  | named {name : String} {config : Config} (h : Loads t (Path.ofString name) config) :
    Configures t file (some name) config
  | beside {config : Config} (h : Loads t (besidePath t file) config) :
    Configures t file none config
  | default (h : ¬ t.IsFile (besidePath t file)) : Configures t file none {}

/-- Settings are loaded from files only. -/
theorem Loads.isFile [CallStack] {config : Config} (h : Loads t path config) : t.IsFile path := by
  obtain ⟨bytes, hbytes, -⟩ := h
  exact ⟨bytes, hbytes⟩

theorem isReport_ofConfigError (e : Config.LoadError) : (ofConfigError e).IsReport := by
  unfold ofConfigError
  split
  · exact .refuse _
  · exact .fail _

/-- Loading settings gives those that the file asks for, or a report if it asks for none. -/
theorem decides_load [CallStack] (t : FileTree) (path : Path) :
    Decides ((Config.load path).adapt ofConfigError) t (Loads t path) := by
  have hrun : runOn (Config.load path) t =
      ((t.readBytes path).mapError (.ofFileError path) >>= Config.ofBytes path, t) := by
    unfold Config.load
    rw [runOn_bind, runOn_adapt, runOn_readBytes]
    cases t.readBytes path <;> rfl
  apply (Decides.adapt hrun isReport_ofConfigError).congr
  intro config
  unfold Loads
  rw [Except.bind_eq_ok_iff]
  simp only [Except.mapError_eq_ok_iff]

/-- Looking for settings in the directory of a source file finds the file there, if there is one. -/
theorem decides_find (t : FileTree) (file : Path) :
    Decides ((absolute file >>= fun place => Config.find place.parent).adapt
      fun e => .fail (.file e)) t fun path? =>
        path? = some (besidePath t file) ∧ t.IsFile (besidePath t file) ∨
          path? = none ∧ ¬ t.IsFile (besidePath t file) := by
  obtain ⟨r, hrun, hr⟩ := exists_runOn_leadsTo .file (besidePath t file) t
  rw [← isFile_iff] at hr
  have hfind : runOn (absolute file >>= fun place => Config.find place.parent) t =
      (r.map fun found => if found then some (besidePath t file) else none, t) := by
    rw [runOn_bind, runOn_absolute]
    show runOn (leadsTo .file (besidePath t file) >>= _) t = _
    rw [runOn_bind, hrun]
    cases r <;> rfl
  refine ⟨_, by rw [runOn_adapt, hfind], ?_⟩
  cases r with
  | error e => exact .fail (.file e)
  | ok found =>
    apply Settles.ok
    intro path?
    rw [← hr]
    cases found <;> simp

/-- The settings are looked for where `Configures` says, and the first file that is found
decides. -/
theorem decides_loadConfig [CallStack] (t : FileTree) (file : Path) (named : Option String) :
    Decides (loadConfig file named) t (Configures t file named) := by
  cases named with
  | some name =>
    apply (decides_load t (Path.ofString name)).congr
    intro config
    refine ⟨.named, fun h => ?_⟩
    cases h with
    | named h => exact h
  | none =>
    -- Without a name, the file beside the source counts, if there is one.
    show Decides ((absolute file >>= fun place => Config.find place.parent).adapt _ >>= _) t _
    apply ((decides_find t file).bind (Q := fun path? config =>
      path?.elim (config = {}) fun path => Loads t path config) ?_).congr
    · intro config
      constructor
      · rintro ⟨_, ⟨rfl, -⟩ | ⟨rfl, hnone⟩, hconfig⟩
        · exact .beside hconfig
        · cases hconfig
          exact .default hnone
      · rintro (_ | h | h)
        · exact ⟨_, .inl ⟨rfl, h.isFile⟩, h⟩
        · exact ⟨none, .inr ⟨rfl, h⟩, rfl⟩
    · rintro path? -
      cases path? with
      | none => exact .pure _
      | some path => exact decides_load t path

/-! ## Sources -/

structure Reads [CallStack] (t : FileTree) (file : Path) (o : Options) (source : String)
    (config : Config) :
    Prop where
  source : ∃ bytes, t.readBytes file = .ok bytes ∧ Utf8.decodeLines bytes = .ok source
  config : Configures t file o.config config

def withStrict (o : Options) (config : Config) : Config :=
  { config with strict := o.strict || config.strict }

/-- Bytes have at most one text, and there is a report if they have none. -/
theorem settles_decodeSource (file : Path) (bytes : List UInt8) :
    Settles (Utf8.decodeLines bytes = .ok ·) (decodeSource file bytes) :=
  .of_mapError (fun _ => .refuse _) _

/-- The source and the settings for it are read, or there is a report on the first that
cannot be. -/
theorem decides_loadSource [CallStack] (t : FileTree) (file : Path) (o : Options) :
    Decides (loadSource file o) t
      fun r => ∃ config, Reads t file o r.1 config ∧ r.2 = withStrict o config := by
  unfold loadSource
  -- The steps are taken one by one: look for the file, load the settings, read the bytes, decode
  -- them. Each leaves to the next what it has not decided.
  apply ((Decides.leadsTo file t).bind (Q := fun found r => found = true ∧
    ∃ config, Reads t file o r.1 config ∧ r.2 = withStrict o config) ?_).congr
  · rintro ⟨source, config'⟩
    constructor
    · rintro ⟨_, -, -, h⟩
      exact h
    · rintro ⟨config, hreads, hconfig⟩
      obtain ⟨bytes, hbytes, -⟩ := hreads.source
      exact ⟨true, ⟨fun _ => ⟨bytes, hbytes⟩, fun _ => rfl⟩, rfl, config, hreads, hconfig⟩
  intro found hfound
  cases found with
  | false => exact .refuse _ fun _ h => Bool.noConfusion h.1
  | true =>
    apply ((decides_loadConfig t file o.config).bind (Q := fun config r =>
      (∃ bytes, t.readBytes file = .ok bytes ∧ Utf8.decodeLines bytes = .ok r.1) ∧
        r.2 = withStrict o config) ?_).congr
    · rintro ⟨source, config'⟩
      constructor
      · rintro ⟨config, hconfig, hsource, heq⟩
        exact ⟨rfl, config, ⟨hsource, hconfig⟩, heq⟩
      · rintro ⟨-, config, hreads, heq⟩
        exact ⟨config, hreads.config, hreads.source, heq⟩
    intro config _
    apply ((Decides.adapt (runOn_readBytes file t) fun _ => .refuse _).bind
      (Q := fun bytes r => Utf8.decodeLines bytes = .ok r.1 ∧ r.2 = withStrict o config) ?_).congr
    · rintro ⟨source, config'⟩
      constructor
      · rintro ⟨bytes, hbytes, hsource, heq⟩
        exact ⟨⟨bytes, hbytes, hsource⟩, heq⟩
      · rintro ⟨⟨bytes, hbytes, hsource⟩, heq⟩
        exact ⟨bytes, hbytes, hsource, heq⟩
    intro bytes _
    apply ((Decides.mk_pure (settles_decodeSource file bytes)).bind
      (Q := fun source r => r = (source, withStrict o config)) fun source _ => .pure _).congr
    rintro ⟨source, config'⟩
    constructor
    · rintro ⟨source', hsource, heq⟩
      cases heq
      exact ⟨hsource, rfl⟩
    · rintro ⟨hsource, rfl⟩
      exact ⟨source, hsource, rfl⟩

end LetFun.Command
