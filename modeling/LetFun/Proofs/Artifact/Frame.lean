import LetFun.Proofs.Artifact.Files
import LetFun.Proofs.FileTree.Failures
/-!
# What storing a program changes

A program that has no text is not stored, and nothing is lost: the only difference that remains are
directories on the way to the artifact. Where a program is stored there is no other difference but
the artifact itself (`store_frame`).
-/

namespace LetFun.Artifact

open FileAccess

variable {p : Program} {path : Path} {indent : Option Int} {t t' : FileTree} {text : String}
  {e : WriteError}

/-- The second tree is the first one with bytes in the file that a path leads to and, on the way to
it, with directories where nothing was. -/
structure HoldsNow (path : Path) (bytes : List UInt8) (t t' : FileTree) : Prop where
  workingDirectory : t'.workingDirectory = t.workingDirectory
  file : t'.readBytes path = .ok bytes
  others : ∃ l, t'.locate path = .ok l ∧ ∀ m ≠ l, t'.get? m = t.get? m ∨
    t.get? m = none ∧ t'.get? m = some .directory ∧
      ∃ q : Path, q.IsOnWayTo path.parent ∧ t'.locate q = .ok m

/-- Storing writes the text of the program and makes directories on the way to the file, no more. -/
theorem holdsNow_of_store [CallStack] (hstore : runOn (store p path indent) t = (.ok (), t')) :
    ∃ text, serialize p indent = .ok text ∧ HoldsNow path (Utf8.encode text) t t' := by
  obtain ⟨opened, text, hopen, htext, hwrite⟩ := store_eq_ok_iff.1 hstore
  have hopens := opensOnly_makeDirectories path.parent t
  rw [hopen] at hopens
  have hfile := FileTree.readBytes_of_writeBytes hwrite
  obtain ⟨l, hl, hfree, rfl⟩ := FileTree.writeBytes_eq_ok_iff.1 hwrite
  have hkeeps := FileTree.keepsDirectories_put hfree (.file (Utf8.encode text))
  refine ⟨text, htext, hopens.workingDirectory, hfile, l, hkeeps.locate hl, fun m hm => ?_⟩
  rw [FileTree.get?_put (FileTree.ne_nil_of_get?_ne hfree), if_neg hm]
  rcases hopens.entry m with hsame | ⟨hnone, hmade, q, hq, hlq⟩
  · exact .inl hsame
  · exact .inr ⟨hnone, hmade, q, hq, hkeeps.locate hlq⟩

/-- A program without a text fails to be stored for that reason, or earlier because a directory on
the way cannot be made. -/
theorem store_of_serialize_error [CallStack] (path : Path) (t : FileTree)
    (htext : serialize p indent = .error e) :
    ∃ e' t', runOn (store p path indent) t = (.error e', t') ∧
      (e' = .text e ∨ ∃ f, e' = .file f ∧
        runOn (makeDirectories path.parent) t = (.error f, t')) := by
  unfold store
  rw [runOn_bind, runOn_adapt, htext]
  rcases hopen : runOn (makeDirectories path.parent) t with ⟨r, t'⟩
  cases r with
  | error f => exact ⟨.file f, t', rfl, .inr ⟨f, rfl, rfl⟩⟩
  | ok u => exact ⟨.text e, t', rfl, .inl rfl⟩

/-- A program with a text fails to be stored for a reason of the file system only. -/
theorem exists_file_of_store_error [CallStack] {e' : StoreError}
    (htext : serialize p indent = .ok text)
    (hstore : runOn (store p path indent) t = (.error e', t')) : ∃ f, e' = .file f := by
  unfold store at hstore
  rcases bind_eq_error_iff.1 hstore with hopen | ⟨_, opened, -, hwrite⟩
  · obtain ⟨f, -, rfl⟩ := adapt_eq_error_iff.1 hopen
    exact ⟨f, rfl⟩
  · rw [htext] at hwrite
    obtain ⟨f, -, rfl⟩ := adapt_eq_error_iff.1 hwrite
    exact ⟨f, rfl⟩

/-- A program without a text is not stored. The error is that the program has none, or that of
making the directories on the way; all files are as they were, and the only difference are
directories on the way. Nothing is made where the path leads, unless the path leads back to one of
them. Where a program is stored, the path leads to a file with its text, and this is the only other
difference. -/
theorem store_frame [CallStack] (p : Program) (path : Path) (indent : Option Int) (t : FileTree) :
    (∀ e, serialize p indent = .error e →
      ∃ e' t', runOn (store p path indent) t = (.error e', t') ∧
        (e' = .text e ∨ ∃ f, e' = .file f ∧
          runOn (makeDirectories path.parent) t = (.error f, t') ∧
            (f = .nulInPath ↔ path.parent.hasNul = true)) ∧
        (∀ l bytes, t'.get? l = some (.file bytes) ↔ t.get? l = some (.file bytes)) ∧
        t.Opens path.parent t' ∧
        (path.names ≠ [] → ".." ∉ path.names →
          ∀ l entry, t'.find path = .ok (l, entry) → t.get? l = some entry)) ∧
    ∀ t', runOn (store p path indent) t = (.ok (), t') →
      ∃ text, serialize p indent = .ok text ∧ HoldsNow path (Utf8.encode text) t t' := by
  refine ⟨fun e htext => ?_, fun t' hstore => holdsNow_of_store hstore⟩
  obtain ⟨e', t', hrun, hwhy⟩ := store_of_serialize_error path t htext
  have hopens := opens_of_store_error hrun
  refine ⟨e', t', hrun, ?_, hopens.get?_eq_file_iff, hopens, fun hnames hup l entry hfind => ?_⟩
  -- The directories come first, so their failure hides that of the text.
  · rcases hwhy with rfl | ⟨f, rfl, hmake⟩
    · exact .inl rfl
    · refine .inr ⟨f, rfl, hmake, FailsOnly.makeDirectories path.parent t f t' hmake, ?_⟩
      intro hnul
      rw [runOn_makeDirectories_of_hasNul hnul] at hmake
      cases hmake
      rfl
  · exact hopens.get?_of_find hnames hup hfind

theorem serialize_storedProgram_wide :
    serialize storedProgram (some (2 ^ 63)) = .error .widthTooLarge := by
  rfl

/-- The artifact that is there is kept, though a directory beside it is made. -/
theorem occupiedTree_store_frame :
    ∃ e' t', runOn (store storedProgram ⟨0, ["out", "new", "..", "a"]⟩ (some (2 ^ 63)))
        occupiedTree = (.error e', t') ∧
      t'.get? ["work", "out", "a"] = some (.file [13]) ∧
      t'.get? ["work", "out", "new"] = some .directory := by
  obtain ⟨e', t', hrun, -, hfiles, -, -⟩ :=
    (store_frame storedProgram ⟨0, ["out", "new", "..", "a"]⟩ (some (2 ^ 63)) occupiedTree).1 _
      serialize_storedProgram_wide
  have hmade : (runOn (store storedProgram ⟨0, ["out", "new", "..", "a"]⟩ (some (2 ^ 63)))
      occupiedTree).2.get? ["work", "out", "new"] = some .directory := by decide +kernel
  rw [hrun] at hmade
  exact ⟨e', t', hrun, (hfiles _ _).2 rfl, hmade⟩

/-- The way to an artifact may hold the character that no name may have, and the path may lead to a
directory that is made on the way. -/
theorem store_frame_not_literal :
    (¬ ∀ p path indent t e, serialize p indent = .error e →
      ∃ e' t', runOn (store p path indent) t = (.error e', t') ∧
        (e' = .text e ∨ ∃ q problem, e' = .file (.at q problem))) ∧
    ¬ ∀ p path indent t e e' t', serialize p indent = .error e →
      runOn (store p path indent) t = (.error e', t') →
        (t.find path).isOk = false → (t'.find path).isOk = false := by
  constructor
  · intro h
    obtain ⟨e', t', hrun, he⟩ := h storedProgram ⟨0, ["a\x00", "b"]⟩ (some (2 ^ 63)) occupiedTree _
      serialize_storedProgram_wide
    rw [store, runOn_bind, runOn_adapt, runOn_makeDirectories_of_hasNul (by decide)] at hrun
    cases hrun
    rcases he with he | ⟨q, problem, he⟩
    · cases he
    · cases he
  · intro h
    obtain ⟨e', t', hrun, -⟩ := store_of_serialize_error ⟨0, ["a", "b", "..", "b"]⟩ occupiedTree
      serialize_storedProgram_wide
    have hmissing := h _ _ _ _ _ _ _ serialize_storedProgram_wide hrun (by decide +kernel)
    have hmade : ((runOn (store storedProgram ⟨0, ["a", "b", "..", "b"]⟩ (some (2 ^ 63)))
        occupiedTree).2.find ⟨0, ["a", "b", "..", "b"]⟩).isOk = true := by decide +kernel
    rw [hrun] at hmade
    rw [hmissing] at hmade
    cases hmade

end LetFun.Artifact
