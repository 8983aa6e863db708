import LetFun.FileTree.Access
import LetFun.Proofs.FileTree
/-!
# Programs that run on file trees

A program takes a tree to a result and a tree. This module says when a chain of steps succeeds or
fails, when a path is found to lead to a file, and that making directories does nothing but open the
way to the last of them (`opens_makeDirectories`).
-/

namespace LetFun

def FileTree.IsFile (t : FileTree) (p : Path) : Prop :=
  ∃ bytes, t.readBytes p = .ok bytes

namespace FileAccess

variable {ε ε' α β : Type}

def runOn (x : ExceptT ε (StateM FileTree) α) (t : FileTree) : Except ε α × FileTree :=
  x t

variable {t t' t'' : FileTree} {p q : Path} {e : ε} {x : ExceptT ε (StateM FileTree) α}
  {f : α → ExceptT ε (StateM FileTree) β}

/-! ## Steps -/

/-- Of two programs in a row, the second starts with the tree that the first leaves. -/
theorem runOn_bind (x : ExceptT ε (StateM FileTree) α) (f : α → ExceptT ε (StateM FileTree) β)
    (t : FileTree) :
    runOn (x >>= f) t = match runOn x t with
      | (.ok a, t') => runOn (f a) t'
      | (.error e, t') => (.error e, t') := by
  show (match runOn x t with
    | (r, t') => (ExceptT.bindCont f r : StateM FileTree (Except ε β)) t') = _
  rcases runOn x t with ⟨r, t'⟩
  cases r <;> rfl

/-- Two programs in a row succeed if both do. -/
theorem bind_eq_ok_iff {b : β} :
    runOn (x >>= f) t = (.ok b, t'') ↔
      ∃ a t', runOn x t = (.ok a, t') ∧ runOn (f a) t' = (.ok b, t'') := by
  rw [runOn_bind]
  rcases runOn x t with ⟨r, t'⟩
  cases r with
  | error e => simp
  | ok a => simp [and_assoc]

/-- Two programs in a row fail where the first of them does. -/
theorem bind_eq_error_iff :
    runOn (x >>= f) t = (.error e, t'') ↔ runOn x t = (.error e, t'') ∨
      ∃ a t', runOn x t = (.ok a, t') ∧ runOn (f a) t' = (.error e, t'') := by
  rw [runOn_bind]
  rcases runOn x t with ⟨r, t'⟩
  cases r with
  | error e => simp
  | ok a => simp [and_assoc]

-- Success is decided without looking at the tree that is left.
theorem exists_of_isOk {x : ExceptT ε (StateM FileTree) Unit} (h : (runOn x t).1.isOk = true) :
    ∃ t', runOn x t = (.ok (), t') := by
  rcases hrun : runOn x t with ⟨r, t'⟩
  rw [hrun] at h
  cases r with
  | error e => cases h
  | ok u => exact ⟨t', rfl⟩

/-- Errors of another kind do not touch the tree. -/
theorem runOn_adapt (g : ε → ε') (x : ExceptT ε (StateM FileTree) α) (t : FileTree) :
    runOn (x.adapt g) t = ((runOn x t).1.mapError g, (runOn x t).2) :=
  rfl

theorem adapt_eq_ok_iff {g : ε → ε'} {a : α} :
    runOn (x.adapt g) t = (.ok a, t') ↔ runOn x t = (.ok a, t') := by
  rw [runOn_adapt, Prod.ext_iff, Except.mapError_eq_ok_iff, Prod.ext_iff]

theorem adapt_eq_error_iff {g : ε → ε'} {e' : ε'} :
    runOn (x.adapt g) t = (.error e', t') ↔ ∃ e, runOn x t = (.error e, t') ∧ g e = e' := by
  rw [runOn_adapt]
  rcases runOn x t with ⟨r, t'⟩
  cases r with
  | error e =>
    show (Except.error (g e), _) = _ ↔ _
    constructor
    · intro h
      cases h
      exact ⟨e, rfl, rfl⟩
    · rintro ⟨_, h, rfl⟩
      cases h
      rfl
  | ok a =>
    show (Except.ok a, _) = _ ↔ _
    simp

/-- An error is handled on the tree that the failing program leaves. -/
theorem runOn_tryCatch (x : ExceptT ε (StateM FileTree) α)
    (handle : ε → ExceptT ε (StateM FileTree) α) (t : FileTree) :
    runOn (tryCatch x handle) t = match runOn x t with
      | (.ok a, t') => (.ok a, t')
      | (.error e, t') => runOn (handle e) t' := by
  show (match runOn x t with
    | (r, t') => runOn (ExceptT.mk (match r with
      | .ok a => pure (.ok a)
      | .error e => handle e)) t') = _
  rcases runOn x t with ⟨r, t'⟩
  cases r <;> rfl

/-! ## Files -/

theorem runOn_readBytes (p : Path) (t : FileTree) :
    runOn (readBytes p) t = (t.readBytes p, t) :=
  rfl

theorem runOn_absolute (p : Path) (t : FileTree) :
    runOn (absolute p) t = (.ok (t.absolute p), t) :=
  rfl

theorem runOn_kind (p : Path) (t : FileTree) :
    runOn (kind p) t = ((t.find p).map fun found => found.2.kind, t) :=
  rfl

theorem runOn_update (f : FileTree → Except FileError FileTree) (t : FileTree) :
    runOn (update f) t = match f t with
      | .ok t' => (.ok (), t')
      | .error e => (.error e, t) :=
  rfl

theorem update_eq_ok_iff {f : FileTree → Except FileError FileTree} :
    runOn (update f) t = (.ok (), t') ↔ f t = .ok t' := by
  rw [runOn_update]
  cases f t with
  | error e => simp
  | ok u => simp

/-- A change that fails leaves the tree as it was. -/
theorem eq_of_update_error {f : FileTree → Except FileError FileTree} {e : FileError}
    (h : runOn (update f) t = (.error e, t')) : t' = t := by
  rw [runOn_update] at h
  cases hf : f t with
  | error e' =>
    rw [hf] at h
    exact (congrArg Prod.snd h).symm
  | ok u =>
    rw [hf] at h
    cases congrArg Prod.fst h

/-! ## What a path leads to -/

/-- Asking what a path leads to leaves the tree as it is, and the answer is yes only if it is so. -/
theorem exists_runOn_leadsTo (wanted : EntryKind) (p : Path) (t : FileTree) :
    ∃ r, runOn (leadsTo wanted p) t = (r, t) ∧
      (r = .ok true ↔ ∃ l e, t.find p = .ok (l, e) ∧ e.kind = wanted) := by
  unfold leadsTo
  rw [runOn_tryCatch, runOn_bind, runOn_kind]
  cases t.find p with
  | ok found =>
    obtain ⟨l, e⟩ := found
    refine ⟨_, rfl, ?_⟩
    simp [and_assoc]
  | error e =>
    simp only [Except.map]
    split
    · exact ⟨_, rfl, by simp⟩
    · exact ⟨_, rfl, by simp⟩
    · exact ⟨_, rfl, by simp⟩
    · exact ⟨_, rfl, by simp⟩

/-- Asking what a path leads to leaves the tree as it is. -/
theorem runOn_leadsTo_snd (wanted : EntryKind) (p : Path) (t : FileTree) :
    (runOn (leadsTo wanted p) t).2 = t := by
  obtain ⟨r, hr, -⟩ := exists_runOn_leadsTo wanted p t
  rw [hr]

theorem isFile_iff : t.IsFile p ↔ ∃ l e, t.find p = .ok (l, e) ∧ e.kind = .file := by
  unfold FileTree.IsFile
  simp only [FileTree.readBytes_eq_ok_iff]
  constructor
  · rintro ⟨bytes, l, h⟩
    exact ⟨l, .file bytes, h, rfl⟩
  · rintro ⟨l, e, h, he⟩
    cases e with
    | file bytes => exact ⟨bytes, l, h⟩
    | directory => cases he

/-! ## Directories -/

/-- A program does nothing to a tree but make directories on the way to `p`. -/
def OpensOnly (p : Path) (x : ExceptT ε (StateM FileTree) α) : Prop :=
  ∀ t : FileTree, t.Opens p (runOn x t).2

namespace OpensOnly

theorem of_eq (h : ∀ t, (runOn x t).2 = t) : OpensOnly p x := by
  intro t
  rw [h]
  exact .refl p t

theorem mono (h : OpensOnly q x) (hq : q.IsOnWayTo p) : OpensOnly p x :=
  fun t => (h t).mono hq

/-- Programs in a row that make directories only on the way to a path do nothing else together. -/
theorem bind (hx : OpensOnly p x) (hf : ∀ a, OpensOnly p (f a)) : OpensOnly p (x >>= f) := by
  intro t
  have hopens := hx t
  rw [runOn_bind]
  rcases hrun : runOn x t with ⟨r, t'⟩
  rw [hrun] at hopens
  cases r with
  | error e => exact hopens
  | ok a => exact hopens.trans (hf a t')

theorem tryCatch {handle : ε → ExceptT ε (StateM FileTree) α} (hx : OpensOnly p x)
    (hhandle : ∀ e, OpensOnly p (handle e)) : OpensOnly p (tryCatch x handle) := by
  intro t
  have hopens := hx t
  rw [runOn_tryCatch]
  rcases hrun : runOn x t with ⟨r, t'⟩
  rw [hrun] at hopens
  cases r with
  | error e => exact hopens.trans (hhandle e t')
  | ok a => exact hopens

theorem makeDirectory (p : Path) :
    OpensOnly p (FileAccess.makeDirectory p : ExceptT FileError (StateM FileTree) Unit) := by
  intro t
  show t.Opens p (runOn (update (·.makeDirectory p)) t).2
  rw [runOn_update]
  cases h : t.makeDirectory p with
  | error e => exact .refl p t
  | ok t' => exact FileTree.opens_of_makeDirectory h

end OpensOnly

theorem opensOnly_unlessDirectory (p : Path) (e : FileError) :
    OpensOnly p (unlessDirectory p e : ExceptT FileError (StateM FileTree) Unit) := by
  unfold unlessDirectory
  by_cases he : e = .nulInPath
  · rw [if_pos he]
    exact .of_eq fun t => rfl
  · rw [if_neg he]
    apply OpensOnly.bind
    · exact .of_eq fun t => runOn_leadsTo_snd .directory p t
    · intro found
      cases found <;> exact .of_eq fun t => rfl

/-- Making directories opens the way to the last of them, also if it fails on the way. -/
theorem opensOnly_makeDirectories (p : Path) :
    OpensOnly p (makeDirectories p : ExceptT FileError (StateM FileTree) Unit) := by
  rw [makeDirectories]
  apply OpensOnly.tryCatch (.makeDirectory p)
  intro e
  by_cases he : e = .at p .notFound
  · rw [if_pos he]
    by_cases hp : p.names = []
    · rw [dif_pos hp]
      exact .of_eq fun t => rfl
    -- The parents come first; they are on the way to the path.
    · rw [dif_neg hp]
      apply OpensOnly.bind
      · exact (opensOnly_makeDirectories p.parent).mono (Path.parent_isOnWayTo p)
      · intro _
        apply OpensOnly.tryCatch (.makeDirectory p)
        intro e'
        by_cases he' : e' = .at p .notFound
        · rw [if_pos he']
          exact .of_eq fun t => rfl
        · rw [if_neg he']
          exact opensOnly_unlessDirectory p e'
  · rw [if_neg he]
    exact opensOnly_unlessDirectory p e
termination_by p.names.length
decreasing_by exact Path.length_parent_lt hp

end FileAccess

end LetFun
