import LetFun.FileTree
import LetFun.Proofs.Reader
/-!
# File trees that change

A path leads through directories only, so it still leads to the same location in a tree that has
kept its directories (`KeepsDirectories.locate`). This is so after a file is written, and the file
is then read back (`readBytes_of_writeBytes`). It is so, too, in a tree with new directories on the
way to some path; such a tree has the files of the first one and no others (`Opens`).
-/

namespace LetFun

variable {t t' t'' : FileTree} {p q r : Path} {l d : Location} {names : List String}
  {bytes : List UInt8} {e : Entry}

/-! ## Paths on the way to other paths -/

/-- The first path is the second one up to some name of it. -/
structure Path.IsOnWayTo (q p : Path) : Prop where
  slashes : q.slashes = p.slashes
  names : q.names <+: p.names

namespace Path

theorem IsOnWayTo.refl (p : Path) : p.IsOnWayTo p :=
  ⟨rfl, List.prefix_rfl⟩

theorem IsOnWayTo.trans (hqp : q.IsOnWayTo p) (hpr : p.IsOnWayTo r) : q.IsOnWayTo r :=
  ⟨hqp.slashes.trans hpr.slashes, hqp.names.trans hpr.names⟩

theorem parent_isOnWayTo (p : Path) : p.parent.IsOnWayTo p :=
  ⟨rfl, List.dropLast_prefix p.names⟩

end Path

namespace FileTree

theorem get?_nil (t : FileTree) : t.get? [] = some .directory :=
  if_pos rfl

theorem ne_nil_of_get?_ne (h : t.get? l ≠ some .directory) : l ≠ [] := by
  intro hl
  apply h
  rw [hl, get?_nil]

/-! ## Trees that keep their directories -/

/-- The directories of a tree, the working directory among them, are those of a second tree too. -/
structure KeepsDirectories (t t' : FileTree) : Prop where
  workingDirectory : t'.workingDirectory = t.workingDirectory
  directory : ∀ l, t.get? l = some .directory → t'.get? l = some .directory

/-- A step starts in a directory, goes up for `..`, and else down to a name that is not too long. -/
theorem step_eq_ok_iff {name : String} :
    t.step d name = .ok l ↔ t.get? d = some .directory ∧
      (if name = ".." then .ok d.dropLast
        else if tooLong 255 name then .error .nameTooLong else .ok (d ++ [name])) =
        (.ok l : Except FileProblem Location) := by
  unfold step
  cases h : t.get? d with
  | none => simp
  | some e => cases e <;> simp

namespace KeepsDirectories

/-- Names that lead somewhere lead to the same place where the directories are kept. -/
theorem follow (h : t.KeepsDirectories t') (hl : t.follow d names = .ok l) :
    t'.follow d names = .ok l := by
  induction names generalizing d with
  | nil => exact hl
  | cons name names ih =>
    unfold FileTree.follow at hl ⊢
    obtain ⟨next, hstep, hrest⟩ := Except.bind_eq_ok_iff.1 hl
    apply Except.bind_eq_ok_iff.2
    refine ⟨next, ?_, ih hrest⟩
    rw [step_eq_ok_iff] at hstep ⊢
    exact ⟨h.directory d hstep.1, hstep.2⟩

/-- A path leads to where it led before. -/
theorem locate (h : t.KeepsDirectories t') (hl : t.locate p = .ok l) : t'.locate p = .ok l := by
  unfold FileTree.locate at hl ⊢
  by_cases hnul : p.hasNul
  · rw [if_pos hnul] at hl
    cases hl
  by_cases hlong : tooLong 4095 p.text
  · rw [if_neg hnul, if_pos hlong] at hl
    cases hl
  rw [if_neg hnul, if_neg hlong] at hl ⊢
  rw [h.workingDirectory]
  rw [Except.mapError_eq_ok_iff] at hl ⊢
  exact h.follow hl

end KeepsDirectories

/-- An entry that is put where no directory was leaves the directories as they are. -/
theorem keepsDirectories_put (h : t.get? l ≠ some .directory) (e : Entry) :
    t.KeepsDirectories (t.put l e) := by
  constructor
  · rfl
  · intro m hm
    rw [get?_put (ne_nil_of_get?_ne h), if_neg]
    · exact hm
    · rintro rfl
      exact h hm

/-! ## Files -/

theorem find_eq_ok_iff : t.find p = .ok (l, e) ↔ t.locate p = .ok l ∧ t.get? l = some e := by
  unfold find
  cases hl : t.locate p with
  | error e => simp [bind, Except.bind]
  | ok m =>
    cases he : t.get? m with
    | none =>
      simp only [bind, Except.bind, he, reduceCtorEq, Except.ok.injEq, false_iff, not_and]
      rintro rfl
      rw [he]
      exact fun h => (nomatch h)
    | some e' =>
      simp only [bind, Except.bind, pure, Except.pure, he, Except.ok.injEq, Prod.mk.injEq]
      constructor
      · rintro ⟨rfl, rfl⟩
        exact ⟨rfl, he⟩
      · rintro ⟨rfl, h⟩
        exact ⟨rfl, Option.some.inj (he.symm.trans h)⟩

/-- Bytes are read from files only. -/
theorem readBytes_eq_ok_iff :
    t.readBytes p = .ok bytes ↔ ∃ l, t.find p = .ok (l, .file bytes) := by
  unfold readBytes
  cases hfind : t.find p with
  | error e => simp [bind, Except.bind]
  | ok found =>
    obtain ⟨l, e⟩ := found
    cases e <;> simp [bind, Except.bind, pure, Except.pure]

/-- Bytes are written where no directory is, and nothing else changes. -/
theorem writeBytes_eq_ok_iff :
    t.writeBytes p bytes = .ok t' ↔ ∃ l, t.locate p = .ok l ∧ t.get? l ≠ some .directory ∧
      t' = t.put l (.file bytes) := by
  unfold writeBytes
  cases hl : t.locate p with
  | error e => simp [bind, Except.bind]
  | ok l =>
    cases he : t.get? l with
    | none => simp [bind, Except.bind, pure, Except.pure, he, eq_comm]
    | some e => cases e <;> simp [bind, Except.bind, pure, Except.pure, he, eq_comm]

/-- A file that is written holds the bytes written. -/
theorem readBytes_of_writeBytes (h : t.writeBytes p bytes = .ok t') :
    t'.readBytes p = .ok bytes := by
  obtain ⟨l, hl, hfree, rfl⟩ := writeBytes_eq_ok_iff.1 h
  apply readBytes_eq_ok_iff.2
  refine ⟨l, find_eq_ok_iff.2 ⟨(keepsDirectories_put hfree _).locate hl, ?_⟩⟩
  rw [get?_put (ne_nil_of_get?_ne hfree), if_pos rfl]

/-! ## Directories that are made -/

/-- The second tree is the first with directories where nothing was, at locations that paths on the
way to `p` lead to. -/
structure Opens (p : Path) (t t' : FileTree) : Prop where
  workingDirectory : t'.workingDirectory = t.workingDirectory
  entry : ∀ l, t'.get? l = t.get? l ∨ t.get? l = none ∧ t'.get? l = some .directory ∧
    ∃ q : Path, q.IsOnWayTo p ∧ t'.locate q = .ok l

namespace Opens

theorem refl (p : Path) (t : FileTree) : t.Opens p t :=
  ⟨rfl, fun _ => .inl rfl⟩

theorem keepsDirectories (h : t.Opens p t') : t.KeepsDirectories t' := by
  constructor
  · exact h.workingDirectory
  · intro l hl
    rcases h.entry l with hsame | ⟨hnone, -, -⟩
    · rw [hsame, hl]
    · rw [hl] at hnone
      cases hnone

/-- Directories may be made in two runs. -/
theorem trans (h : t.Opens p t') (h' : t'.Opens p t'') : t.Opens p t'' := by
  constructor
  · rw [h'.workingDirectory, h.workingDirectory]
  · intro l
    rcases h.entry l with hsame | ⟨hnone, hmade, q, hq, hl⟩
    · rcases h'.entry l with hsame' | ⟨hnone', hmade'⟩
      · exact .inl (hsame'.trans hsame)
      · exact .inr ⟨hsame ▸ hnone', hmade'⟩
    · right
      exact ⟨hnone, h'.keepsDirectories.directory l hmade, q, hq, h'.keepsDirectories.locate hl⟩

/-- What is on the way to a path is on the way to every path that goes on from it. -/
theorem mono (h : t.Opens q t') (hq : q.IsOnWayTo p) : t.Opens p t' := by
  refine ⟨h.workingDirectory, fun l => ?_⟩
  rcases h.entry l with hsame | ⟨hnone, hmade, r, hr, hl⟩
  · exact .inl hsame
  · exact .inr ⟨hnone, hmade, r, hr.trans hq, hl⟩

/-- The files are the same. -/
theorem get?_eq_file_iff (h : t.Opens p t') (l : Location) (bytes : List UInt8) :
    t'.get? l = some (.file bytes) ↔ t.get? l = some (.file bytes) := by
  rcases h.entry l with hsame | ⟨hnone, hmade, -⟩
  · rw [hsame]
  · rw [hnone, hmade]
    simp

end Opens

/-- A directory is made where nothing is, and nothing else changes. -/
theorem makeDirectory_eq_ok_iff :
    t.makeDirectory p = .ok t' ↔ ∃ l, t.locate p = .ok l ∧ t.get? l = none ∧
      t' = t.put l .directory := by
  unfold makeDirectory
  cases hl : t.locate p with
  | error e => simp [bind, Except.bind]
  | ok l => cases he : t.get? l <;> simp [bind, Except.bind, pure, Except.pure, he, eq_comm]

/-- Making a directory is making one on the way to it. -/
theorem opens_of_makeDirectory (h : t.makeDirectory p = .ok t') : t.Opens p t' := by
  obtain ⟨l, hl, hnone, rfl⟩ := makeDirectory_eq_ok_iff.1 h
  have hfree : t.get? l ≠ some .directory := by
    rw [hnone]
    exact fun h => (nomatch h)
  refine ⟨rfl, fun m => ?_⟩
  rw [get?_put (ne_nil_of_get?_ne hfree)]
  by_cases hm : m = l
  · right
    rw [if_pos hm, hm]
    exact ⟨hnone, rfl, p, .refl p, (keepsDirectories_put hfree _).locate hl⟩
  · left
    rw [if_neg hm]

end FileTree

end LetFun
