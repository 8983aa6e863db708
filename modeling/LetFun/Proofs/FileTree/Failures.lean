import LetFun.Proofs.FileTree.Runs
/-!
# Operations that fail

An operation on a path fails because of that path (`Concerns`), and for the character that no name
may have exactly if the path holds it; making directories is no different in this
(`FailsOnly.makeDirectories`). Making the directories on the way to a path makes nothing where the
path leads, unless the path leads back to a directory around it (`Opens.get?_of_find`).
-/

namespace LetFun

variable {t t' : FileTree} {p q : Path} {l d : Location} {names : List String} {e : Entry}

theorem Path.hasNul_of_parent (h : p.parent.hasNul = true) : p.hasNul = true := by
  obtain ⟨name, hname, hnul⟩ := List.any_eq_true.1 h
  exact List.any_eq_true.2 ⟨name, (List.dropLast_prefix p.names).subset hname, hnul⟩

namespace FileTree

/-! ## Single operations -/

/-- An error is about a path: it holds the character that no name may have, or there is a problem
with what it leads to. -/
inductive Concerns (p : Path) : FileError → Prop where
  | nul (h : p.hasNul = true) : Concerns p .nulInPath
  | problem (problem : FileProblem) : Concerns p (.at p problem)

/-- A path that leads nowhere is blamed with the problem that was met. -/
theorem concerns_of_locate {error : FileError} (h : t.locate p = .error error) :
    Concerns p error := by
  unfold locate at h
  by_cases hnul : p.hasNul
  · rw [if_pos hnul] at h
    cases h
    exact .nul hnul
  · rw [if_neg hnul] at h
    by_cases hlong : tooLong 4095 p.text
    · rw [if_pos hlong] at h
      cases h
      exact .problem _
    · rw [if_neg hlong] at h
      dsimp only at h
      generalize t.follow _ p.names = followed at h
      cases followed with
      | ok l => cases h
      | error problem =>
        cases h
        exact .problem problem

/-- A directory that is not made is blamed on its path. -/
theorem concerns_of_makeDirectory {error : FileError} (h : t.makeDirectory p = .error error) :
    Concerns p error := by
  unfold makeDirectory at h
  rcases Except.bind_eq_error_iff.1 h with hl | ⟨l, -, h⟩
  · exact concerns_of_locate hl
  · cases he : t.get? l with
    | none =>
      rw [he] at h
      cases h
    | some entry =>
      rw [he] at h
      cases h
      exact .problem _

theorem concerns_of_find {error : FileError} (h : t.find p = .error error) :
    Concerns p error := by
  unfold find at h
  rcases Except.bind_eq_error_iff.1 h with hl | ⟨l, -, h⟩
  · exact concerns_of_locate hl
  · cases he : t.get? l with
    | none =>
      rw [he] at h
      cases h
      exact .problem _
    | some entry =>
      rw [he] at h
      cases h

/-- Bytes that are not read are blamed on their path. -/
theorem concerns_of_readBytes {error : FileError} (h : t.readBytes p = .error error) :
    Concerns p error := by
  unfold readBytes at h
  rcases Except.bind_eq_error_iff.1 h with hfind | ⟨⟨l, entry⟩, -, h⟩
  · exact concerns_of_find hfind
  · cases entry with
    | file bytes => cases h
    | directory =>
      cases h
      exact .problem _

/-- The character that no name may have is noticed before anything is looked at. -/
theorem locate_of_hasNul (h : p.hasNul = true) : t.locate p = .error .nulInPath := by
  rw [locate, if_pos h]

theorem readBytes_of_hasNul (h : p.hasNul = true) : t.readBytes p = .error .nulInPath := by
  rw [readBytes, find, locate_of_hasNul h]
  rfl

theorem makeDirectory_of_hasNul (h : p.hasNul = true) :
    t.makeDirectory p = .error .nulInPath := by
  rw [makeDirectory, locate_of_hasNul h]
  rfl

/-! ## Paths that only lead downwards -/

/-- Without `..` the names that lead somewhere are those of the location. -/
theorem eq_append_of_follow (hup : ".." ∉ names) (h : t.follow d names = .ok l) :
    l = d ++ names := by
  induction names generalizing d with
  | nil =>
    cases h
    exact (List.append_nil _).symm
  | cons name names ih =>
    rw [List.mem_cons, not_or] at hup
    unfold follow at h
    obtain ⟨next, hstep, hrest⟩ := Except.bind_eq_ok_iff.1 h
    have hnext := (step_eq_ok_iff.1 hstep).2
    rw [if_neg (Ne.symm hup.1)] at hnext
    by_cases hlong : tooLong 255 name
    · rw [if_pos hlong] at hnext
      cases hnext
    · rw [if_neg hlong] at hnext
      cases hnext
      rw [ih hup.2 hrest, List.append_assoc]
      rfl

/-- A path without `..` leads to its names in the directory where it starts. -/
theorem eq_append_of_locate (hup : ".." ∉ p.names) (h : t.locate p = .ok l) :
    l = (if p.slashes = 0 then t.workingDirectory else []) ++ p.names := by
  unfold locate at h
  by_cases hnul : p.hasNul
  · rw [if_pos hnul] at h
    cases h
  · by_cases hlong : tooLong 4095 p.text
    · rw [if_neg hnul, if_pos hlong] at h
      cases h
    · rw [if_neg hnul, if_neg hlong, Except.mapError_eq_ok_iff] at h
      exact eq_append_of_follow hup h

/-- A path without `..` does not lead to a directory around it. -/
theorem locate_ne_of_isOnWayTo_parent (hnames : p.names ≠ []) (hup : ".." ∉ p.names)
    (hq : q.IsOnWayTo p.parent) (hl : t.locate q = .ok l) : t.locate p ≠ .ok l := by
  intro hp
  have hqup : ".." ∉ q.names := fun hmem =>
    hup ((List.dropLast_prefix p.names).subset (hq.names.subset hmem))
  have hlt := Nat.lt_of_le_of_lt hq.names.length_le (Path.length_parent_lt hnames)
  have hsame := (eq_append_of_locate hup hp).symm.trans (eq_append_of_locate hqup hl)
  have hslashes : p.slashes = q.slashes := hq.slashes.symm
  rw [hslashes, List.append_cancel_left_eq] at hsame
  rw [hsame] at hlt
  exact Nat.lt_irrefl _ hlt

/-- Opening the way to the directory of a path makes nothing where the path leads, unless it leads
to one of the directories around it. -/
theorem Opens.get?_of_find (h : t.Opens p.parent t') (hnames : p.names ≠ [])
    (hup : ".." ∉ p.names) (hfind : t'.find p = .ok (l, e)) : t.get? l = some e := by
  obtain ⟨hl, he⟩ := find_eq_ok_iff.1 hfind
  rcases h.entry l with hsame | ⟨-, -, q, hq, hmade⟩
  · rw [← hsame, he]
  · exact absurd hl (locate_ne_of_isOnWayTo_parent hnames hup hq hmade)

end FileTree

/-! ## Making directories -/

namespace FileAccess

variable {ε α β : Type} {x : ExceptT ε (StateM FileTree) α} {P Q : ε → Prop}

def FailsOnly (P : ε → Prop) (x : ExceptT ε (StateM FileTree) α) : Prop :=
  ∀ t e t', runOn x t = (.error e, t') → P e

namespace FailsOnly

theorem throw {e : ε} (h : P e) :
    FailsOnly P (MonadExcept.throw e : ExceptT ε (StateM FileTree) α) := by
  intro t e' t' hrun
  cases congrArg Prod.fst hrun
  exact h

theorem pure (a : α) : FailsOnly P (Pure.pure a : ExceptT ε (StateM FileTree) α) := by
  intro t e t' hrun
  cases congrArg Prod.fst hrun

theorem bind {f : α → ExceptT ε (StateM FileTree) β} (hx : FailsOnly P x)
    (hf : ∀ a, FailsOnly P (f a)) : FailsOnly P (x >>= f) := by
  intro t e t' hrun
  rcases bind_eq_error_iff.1 hrun with hfail | ⟨a, u, -, hfail⟩
  · exact hx t e t' hfail
  · exact hf a u e t' hfail

/-- Where an error is handled, the failures are those of the handler. -/
theorem tryCatch {handle : ε → ExceptT ε (StateM FileTree) α} (hx : FailsOnly Q x)
    (hhandle : ∀ e, Q e → FailsOnly P (handle e)) : FailsOnly P (tryCatch x handle) := by
  intro t e t' hrun
  rw [runOn_tryCatch] at hrun
  rcases hfirst : runOn x t with ⟨r, u⟩
  rw [hfirst] at hrun
  cases r with
  | ok a => cases congrArg Prod.fst hrun
  | error e' => exact hhandle e' (hx t e' u hfirst) u e t' hrun

end FailsOnly

/-- Only a path that holds the character that no name may have fails for that reason. -/
def BlamesNul (p : Path) (e : FileError) : Prop :=
  e = .nulInPath → p.hasNul = true

theorem blamesNul_of_concerns {p : Path} {e : FileError} (h : FileTree.Concerns p e) :
    BlamesNul p e := by
  rintro rfl
  cases h with
  | nul hnul => exact hnul

namespace FailsOnly

/-- Making a directory blames the forbidden character only on a path that has it. -/
theorem makeDirectory (p : Path) : FailsOnly (BlamesNul p)
    (FileAccess.makeDirectory p : ExceptT FileError (StateM FileTree) Unit) := by
  intro t e t' hrun
  change runOn (update (·.makeDirectory p)) t = _ at hrun
  rw [runOn_update] at hrun
  cases hmake : t.makeDirectory p with
  | error e' =>
    rw [hmake] at hrun
    cases hrun
    exact blamesNul_of_concerns (FileTree.concerns_of_makeDirectory hmake)
  | ok u =>
    rw [hmake] at hrun
    cases congrArg Prod.fst hrun

theorem leadsTo (wanted : EntryKind) (p : Path) : FailsOnly (BlamesNul p)
    (FileAccess.leadsTo wanted p : ExceptT FileError (StateM FileTree) Bool) := by
  unfold FileAccess.leadsTo
  have hkind : FailsOnly (fun _ => True)
      (do return (← kind p) = wanted : ExceptT FileError (StateM FileTree) Bool) :=
    fun _ _ _ _ => trivial
  refine tryCatch hkind fun e _ => ?_
  split
  · exact pure false
  · exact pure false
  · exact pure false
  · exact throw fun he => absurd he ‹_›

/-- Looking whether there is a directory does not blame the path with a new error. -/
theorem unlessDirectory {p : Path} {e : FileError} (he : BlamesNul p e) : FailsOnly (BlamesNul p)
    (FileAccess.unlessDirectory p e : ExceptT FileError (StateM FileTree) Unit) := by
  unfold FileAccess.unlessDirectory
  by_cases hnul : e = .nulInPath
  · rw [if_pos hnul]
    exact throw he
  · rw [if_neg hnul]
    refine bind (leadsTo .directory p) fun found => ?_
    cases found with
    | true => exact pure ()
    | false => exact throw he

/-- Making the directories on the way blames it on no other path, as a parent has it only if the
path has. -/
theorem makeDirectories (p : Path) : FailsOnly (BlamesNul p)
    (FileAccess.makeDirectories p : ExceptT FileError (StateM FileTree) Unit) := by
  rw [FileAccess.makeDirectories]
  refine tryCatch (makeDirectory p) fun e hblames => ?_
  by_cases he : e = .at p .notFound
  · rw [if_pos he]
    by_cases hp : p.names = []
    · rw [dif_pos hp]
      exact throw hblames
    · rw [dif_neg hp]
      -- What the parents are blamed for, the path has as well.
      have hparent : FailsOnly (BlamesNul p)
          (FileAccess.makeDirectories p.parent : ExceptT FileError (StateM FileTree) Unit) :=
        fun t e t' hrun hnul =>
          Path.hasNul_of_parent (makeDirectories p.parent t e t' hrun hnul)
      refine bind hparent fun _ => tryCatch (makeDirectory p) fun e' hblames' => ?_
      by_cases he' : e' = .at p .notFound
      · rw [if_pos he']
        exact throw hblames'
      · rw [if_neg he']
        exact unlessDirectory hblames'
  · rw [if_neg he]
    exact unlessDirectory hblames
termination_by p.names.length
decreasing_by exact Path.length_parent_lt hp

end FailsOnly

/-- With the character that no name may have, making directories fails before any is made. -/
theorem runOn_makeDirectories_of_hasNul {p : Path} (h : p.hasNul = true) (t : FileTree) :
    runOn (makeDirectories p) t = (.error .nulInPath, t) := by
  have hfirst : runOn (FileAccess.makeDirectory p) t = (.error .nulInPath, t) := by
    show runOn (update (·.makeDirectory p)) t = _
    rw [runOn_update, FileTree.makeDirectory_of_hasNul h]
  rw [makeDirectories, runOn_tryCatch, hfirst]
  rfl

end FileAccess

end LetFun
