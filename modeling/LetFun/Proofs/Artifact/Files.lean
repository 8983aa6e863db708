import LetFun.Artifact.Store
import LetFun.Proofs.Artifact
import LetFun.Proofs.FileTree.Runs
import LetFun.Proofs.Json.Characters
import LetFun.Proofs.Utf8
/-!
# Artifacts in files

A file that a program is stored in holds the text of the program (`store_eq_ok_iff`), which is all
printable ASCII and line feeds. Reading a file makes line feeds of all line ends; as there are no
others in the text, the program is loaded again from its file.
-/

namespace LetFun.Artifact

open FileAccess

variable {p : Program} {path : Path} {indent : Option Int} {t t' : FileTree} {text : String}

/-! ## Storing -/

/-- A program is stored by making the directories on the way and then writing its text. -/
theorem store_eq_ok_iff [CallStack] :
    runOn (store p path indent) t = (.ok (), t') ↔
      ∃ opened text, runOn (makeDirectories path.parent) t = (.ok (), opened) ∧
        serialize p indent = .ok text ∧ opened.writeBytes path (Utf8.encode text) = .ok t' := by
  unfold store
  rw [bind_eq_ok_iff]
  simp only [adapt_eq_ok_iff]
  constructor
  · rintro ⟨_, opened, hopen, hwrite⟩
    cases htext : serialize p indent with
    | error e =>
      rw [htext] at hwrite
      cases congrArg Prod.fst hwrite
    | ok text =>
      rw [htext] at hwrite
      exact ⟨opened, text, hopen, rfl, update_eq_ok_iff.1 (adapt_eq_ok_iff.1 hwrite)⟩
  · rintro ⟨opened, text, hopen, htext, hwrite⟩
    refine ⟨(), opened, hopen, ?_⟩
    rw [htext]
    exact adapt_eq_ok_iff.2 (update_eq_ok_iff.2 hwrite)

/-- Where a program is not stored, directories on the way have been made at most. -/
theorem opens_of_store_error [CallStack] {e : StoreError}
    (h : runOn (store p path indent) t = (.error e, t')) : t.Opens path.parent t' := by
  have hopens := opensOnly_makeDirectories path.parent t
  unfold store at h
  rcases bind_eq_error_iff.1 h with hopen | ⟨_, opened, hopen, hwrite⟩
  · obtain ⟨e', hopen, -⟩ := adapt_eq_error_iff.1 hopen
    rwa [hopen] at hopens
  · rw [adapt_eq_ok_iff.1 hopen] at hopens
    cases htext : serialize p indent with
    | error e' =>
      rw [htext] at hwrite
      cases congrArg Prod.snd hwrite
      exact hopens
    | ok text =>
      rw [htext] at hwrite
      obtain ⟨e', hwrite, -⟩ := adapt_eq_error_iff.1 hwrite
      rw [eq_of_update_error hwrite]
      exact hopens

/-! ## Loading -/

/-- Loading leaves the tree as it is. -/
theorem runOn_load [CallStack] (path : Path) (t : FileTree) :
    runOn (load path) t = ((t.readBytes path).mapError .file >>= ofBytes, t) := by
  unfold load
  rw [runOn_bind, runOn_adapt, runOn_readBytes]
  cases t.readBytes path <;> rfl

/-! ## Texts -/

/-- No width asks for the compact layout. -/
theorem layoutOf_eq_compact_iff : layoutOf indent = .ok .compact ↔ indent = none := by
  cases indent with
  | none => simp [layoutOf]
  | some n =>
    rw [layoutOf]
    split <;> simp

/-- The text of a program is printable ASCII, and line feeds if it is not compact. -/
theorem isPrintableAscii_of_mem_serialize [CallStack] (hspans : ∀ n ∈ p.walk, n.span.IsShowable)
    (htext : serialize p indent = .ok text) {c : Char} (hc : c ∈ text.toList) :
    IsPrintableAscii c ∨ indent ≠ none ∧ c = '\n' := by
  obtain ⟨-, layout, hlayout, -, rfl⟩ := serialize_eq_ok_iff.1 htext
  rcases Json.uses_of_mem_render (readable_document hspans (Nat.le_refl _)) hc with hc | ⟨hne, hc⟩
  · exact .inl hc
  · refine .inr ⟨fun hindent => hne ?_, hc⟩
    rw [layoutOf_eq_compact_iff.2 hindent] at hlayout
    exact (Except.ok.inj hlayout).symm

/-- An artifact has no carriage returns, so its text comes back from its bytes with the
same lines. -/
theorem decodeLines_encode_serialize [CallStack] (hspans : ∀ n ∈ p.walk, n.span.IsShowable)
    (htext : serialize p indent = .ok text) : Utf8.decodeLines (Utf8.encode text) = .ok text := by
  apply Utf8.decodeLines_encode
  intro c hc
  rcases isPrintableAscii_of_mem_serialize hspans htext hc with ⟨hspace, htilde⟩ | ⟨-, rfl⟩
  · refine ⟨Nat.lt_of_le_of_lt htilde (by decide), ?_⟩
    rintro rfl
    exact absurd hspace (by decide)
  · decide

/-! ## Round trip -/

/-- What is stored in a file is loaded from it again. The file holds the text of the program, which
has no character but printable ASCII, and line feeds if it is not compact. -/
theorem load_of_store [CallStack] (hspans : ∀ n ∈ p.walk, n.span.IsShowable)
    (hstore : runOn (store p path indent) t = (.ok (), t')) :
    ∃ text, serialize p indent = .ok text ∧ t'.readBytes path = .ok (Utf8.encode text) ∧
      (∀ c ∈ text.toList, c = '\n' ∨ ' ' ≤ c ∧ c ≤ '~') ∧ (indent = none → '\n' ∉ text.toList) ∧
      runOn (load path) t' = (.ok p, t') := by
  obtain ⟨opened, text, -, htext, hwrite⟩ := store_eq_ok_iff.1 hstore
  have hplain : ∀ c ∈ text.toList, IsPrintableAscii c ∨ indent ≠ none ∧ c = '\n' := fun c hc =>
    isPrintableAscii_of_mem_serialize hspans htext hc
  have hfile := FileTree.readBytes_of_writeBytes hwrite
  refine ⟨text, htext, hfile, fun c hc => ?_, fun hindent hc => ?_, ?_⟩
  · rcases hplain c hc with hprintable | ⟨-, hfeed⟩
    · exact .inr hprintable
    · exact .inl hfeed
  · rcases hplain _ hc with hprintable | ⟨hne, -⟩
    · exact absurd hprintable (by decide)
    · exact hne hindent
  -- The bytes in the file are those of the text, and reading them changes no lines.
  · have hbytes : ofBytes (Utf8.encode text) = .ok p := by
      rw [ofBytes, decodeLines_encode_serialize hspans htext]
      show (deserialize text).mapError LoadError.artifact = _
      rw [deserialize_of_serialize hspans htext]
      rfl
    rw [runOn_load, hfile]
    exact congrArg (·, t') hbytes

def occupiedTree : FileTree :=
  ⟨[(["work"], .directory), (["work", "out"], .directory), (["work", "out", "a"], .file [13])],
    ["work"]⟩

theorem storedProgram_load_of_store :
    (∀ n ∈ storedProgram.walk, n.span.IsShowable) ∧
      ∃ tree, runOn (store storedProgram ⟨0, ["out", "new", "..", "a"]⟩ (some 1)) occupiedTree =
          (.ok (), tree) ∧
        ∃ text, serialize storedProgram (some 1) = .ok text ∧
          tree.readBytes ⟨0, ["out", "new", "..", "a"]⟩ = .ok (Utf8.encode text) ∧
          (∀ c ∈ text.toList, c = '\n' ∨ ' ' ≤ c ∧ c ≤ '~') ∧
          (some (1 : Int) = none → '\n' ∉ text.toList) ∧
          runOn (load ⟨0, ["out", "new", "..", "a"]⟩) tree = (.ok storedProgram, tree) := by
  have hspans : ∀ n ∈ storedProgram.walk, n.span.IsShowable := by decide +kernel
  obtain ⟨tree, hstore⟩ : ∃ tree, runOn
      (store storedProgram ⟨0, ["out", "new", "..", "a"]⟩ (some 1)) occupiedTree = (.ok (), tree) :=
    exists_of_isOk (by decide +kernel)
  exact ⟨hspans, tree, hstore, load_of_store hspans hstore⟩

end LetFun.Artifact
