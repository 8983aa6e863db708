import LetFun.Command.Run
import LetFun.Proofs.FileTree.Runs
/-!
# Steps of commands

A command is a chain of steps, each of which settles something: it comes to the one value that there
is, is refused with a message if there is none, or fails for want of a message (`Settles`). The
steps up to the last leave the file tree as it is (`Decides`); the last one may change it (`Ends`).
-/

namespace LetFun.Command

open FileAccess

variable {α β ε : Type} {P P' : α → Prop} {Q : α → β → Prop} {t t' : FileTree} {c : Command}
  {arguments : List String} {name : String} {o : Options} {outcome : Outcome}

/-! ## Steps -/

inductive Outcome.IsReport : Outcome → Prop where
  | refuse (message : String) : (Outcome.refuse message).IsReport
  | fail (cause : Failure) : (Outcome.fail cause).IsReport

/-- A step comes to the only value with a property, or is refused because there is none,
or fails. -/
inductive Settles (P : α → Prop) : Except Outcome α → Prop where
  | ok {a : α} (h : ∀ b, P b ↔ b = a) : Settles P (.ok a)
  | refuse {message : String} (h : ∀ b, ¬ P b) : Settles P (.error (.refuse message))
  | fail (cause : Failure) : Settles P (.error (.fail cause))

namespace Settles

/-- Only what a property says about values matters. -/
theorem congr {r : Except Outcome α} (h : Settles P r) (hP : ∀ a, P a ↔ P' a) : Settles P' r := by
  have hsame : P = P' := funext fun a => propext (hP a)
  rwa [← hsame]

/-- A step whose result settles the next one settles both. -/
theorem bind {r : Except Outcome α} {f : α → Except Outcome β} (h : Settles P r)
    (hf : ∀ a, P a → Settles (Q a) (f a)) : Settles (fun b => ∃ a, P a ∧ Q a b) (r >>= f) := by
  cases h with
  | @ok a ha =>
    apply (hf a ((ha a).2 rfl)).congr
    intro b
    constructor
    · exact fun hb => ⟨a, (ha a).2 rfl, hb⟩
    · rintro ⟨a', ha', hb⟩
      rwa [← (ha a').1 ha']
  | refuse hnone => exact .refuse fun b ⟨a, ha, _⟩ => hnone a ha
  | fail cause => exact .fail cause

-- A step all of whose errors are reports settles what it returns.
theorem of_mapError {g : ε → Outcome} (hg : ∀ e, (g e).IsReport) (r : Except ε α) :
    Settles (r = .ok ·) (r.mapError g) := by
  cases r with
  | ok a => exact .ok fun b => ⟨fun h => (Except.ok.inj h).symm, fun h => h ▸ rfl⟩
  | error e =>
    have hreport := hg e
    show Settles _ (.error (g e))
    generalize g e = outcome at hreport ⊢
    cases hreport with
    | refuse message => exact .refuse fun b h => (nomatch h)
    | fail cause => exact .fail cause

end Settles

def Decides (x : ExceptT Outcome (StateM FileTree) α) (t : FileTree) (P : α → Prop) : Prop :=
  ∃ r, runOn x t = (r, t) ∧ Settles P r

namespace Decides

variable {x : ExceptT Outcome (StateM FileTree) α}

theorem congr (h : Decides x t P) (hP : ∀ a, P a ↔ P' a) : Decides x t P' := by
  obtain ⟨r, hrun, hr⟩ := h
  exact ⟨r, hrun, hr.congr hP⟩

/-- A program that decides something is followed by one that decides what is left. -/
theorem bind {f : α → ExceptT Outcome (StateM FileTree) β} (h : Decides x t P)
    (hf : ∀ a, P a → Decides (f a) t (Q a)) :
    Decides (x >>= f) t (fun b => ∃ a, P a ∧ Q a b) := by
  obtain ⟨r, hrun, hr⟩ := h
  rw [Decides, runOn_bind, hrun]
  cases hr with
  | @ok a ha =>
    obtain ⟨s, hrun', hs⟩ := hf a ((ha a).2 rfl)
    exact ⟨s, hrun', Settles.bind (.ok ha) fun a' ha' => (ha a').1 ha' ▸ hs⟩
  | refuse hnone => exact ⟨_, rfl, .refuse fun b ⟨a, ha, _⟩ => hnone a ha⟩
  | fail cause => exact ⟨_, rfl, .fail cause⟩

theorem pure (a : α) : Decides (pure a) t (· = a) :=
  ⟨_, rfl, .ok fun _ => Iff.rfl⟩

theorem refuse (message : String) (h : ∀ a, ¬ P a) :
    Decides (throw (.refuse message)) t P :=
  ⟨_, rfl, .refuse h⟩

/-- A step that looks at no files decides what it settles. -/
theorem mk_pure {r : Except Outcome α} (h : Settles P r) : Decides (ExceptT.mk (Pure.pure r)) t P :=
  ⟨r, rfl, h⟩

-- A program without effects all of whose errors are reports.
theorem adapt {y : ExceptT ε (StateM FileTree) α} {r : Except ε α} {g : ε → Outcome}
    (hrun : runOn y t = (r, t)) (hg : ∀ e, (g e).IsReport) : Decides (y.adapt g) t (r = .ok ·) := by
  refine ⟨r.mapError g, ?_, .of_mapError hg r⟩
  rw [runOn_adapt, hrun]

/-- Looking for a file decides whether there is one. -/
theorem leadsTo (p : Path) (t : FileTree) :
    Decides ((FileAccess.leadsTo .file p).adapt fun e => .fail (.file e)) t
      fun found => found = true ↔ t.IsFile p := by
  obtain ⟨r, hrun, hr⟩ := exists_runOn_leadsTo .file p t
  rw [← isFile_iff] at hr
  refine ⟨r.mapError _, by rw [runOn_adapt, hrun], ?_⟩
  cases r with
  | error e => exact .fail (.file e)
  | ok found =>
    apply Settles.ok
    intro b
    rw [← hr, Except.ok.injEq]
    cases b <;> cases found <;> simp

end Decides

/-! ## Runs -/

/-- A run comes to the only result and tree with a property. Else it leaves a tree as it may, and it
is refused because there are no such result and tree, or fails. -/
inductive Ends (R : α → FileTree → Prop) (left : FileTree → Prop) :
    Except Outcome α × FileTree → Prop where
  | ok {a : α} {t' : FileTree} (h : ∀ b u, R b u ↔ b = a ∧ u = t') : Ends R left (.ok a, t')
  | refuse {message : String} {t' : FileTree} (h : ∀ b u, ¬ R b u) (hleft : left t') :
    Ends R left (.error (.refuse message), t')
  | fail {cause : Failure} {t' : FileTree} (hleft : left t') :
    Ends R left (.error (.fail cause), t')

namespace Ends

variable {R R' : α → FileTree → Prop} {left : FileTree → Prop} {r : Except Outcome α × FileTree}

theorem congr (h : Ends R left r) (hR : ∀ a u, R a u ↔ R' a u) : Ends R' left r := by
  have hsame : R = R' := funext fun a => funext fun u => propext (hR a u)
  rwa [← hsame]

/-- A report is right if there is no result, as long as the tree is one that may be left. -/
theorem of_report {outcome : Outcome} (h : outcome.IsReport) (hnone : ∀ a u, ¬ R a u)
    (hleft : left t') : Ends R left (.error outcome, t') := by
  cases h with
  | refuse message => exact .refuse hnone hleft
  | fail cause => exact .fail hleft

end Ends

namespace Decides

variable {x : ExceptT Outcome (StateM FileTree) α} {left : FileTree → Prop}

/-- A program that decides something ends with the tree as it was. -/
theorem ends (h : Decides x t P) : Ends (fun a u => P a ∧ u = t) (· = t) (runOn x t) := by
  obtain ⟨r, hrun, hr⟩ := h
  rw [hrun]
  cases hr with
  | ok ha => exact .ok fun b u => and_congr_left' (ha b)
  | refuse hnone => exact .refuse (fun b u hb => hnone b hb.1) rfl
  | fail cause => exact .fail rfl

/-- A run that starts with a decision ends as what follows the decision does. -/
theorem ends_bind {f : α → ExceptT Outcome (StateM FileTree) β} {R : α → β → FileTree → Prop}
    (h : Decides x t P) (hleft : left t) (hf : ∀ a, P a → Ends (R a) left (runOn (f a) t)) :
    Ends (fun b u => ∃ a, P a ∧ R a b u) left (runOn (x >>= f) t) := by
  obtain ⟨r, hrun, hr⟩ := h
  rw [runOn_bind, hrun]
  cases hr with
  | @ok a ha =>
    apply (hf a ((ha a).2 rfl)).congr
    intro b u
    constructor
    · exact fun hb => ⟨a, (ha a).2 rfl, hb⟩
    · rintro ⟨a', ha', hb⟩
      rwa [← (ha a').1 ha']
  | refuse hnone => exact .refuse (fun b u ⟨a, ha, _⟩ => hnone a ha) hleft
  | fail cause => exact .fail hleft

end Decides

/-! ## Command lines -/

def runIn [CallStack] (arguments : List String) (t : FileTree) : Outcome × FileTree :=
  (run arguments : StateM FileTree Outcome) t

def handOut : Except Outcome Outcome × FileTree → Outcome × FileTree
  | (.ok outcome, t) => (outcome, t)
  | (.error outcome, t) => (outcome, t)

/-- A command line with a meaning ends as the command that it asks for. -/
theorem runIn_eq [CallStack] (h : request arguments = .ok (.run c name o)) :
    runIn arguments t = handOut (runOn (execute c (Path.ofString name) o) t) := by
  unfold runIn run
  rw [h]
  have hbind (f : Except Outcome Outcome → StateM FileTree Outcome) :
      ((execute c (Path.ofString name) o).run >>= f) t =
        f (runOn (execute c (Path.ofString name) o) t).1
          (runOn (execute c (Path.ofString name) o) t).2 := rfl
  refine (hbind _).trans ?_
  rcases runOn (execute c (Path.ofString name) o) t with ⟨r, t'⟩
  cases r <;> rfl

-- Only what a command comes to has exit code 0.
theorem Ends.of_exit_zero {R : Outcome → FileTree → Prop} {left : FileTree → Prop}
    {r : Except Outcome Outcome × FileTree} (h : Ends R left r)
    (hrun : handOut r = (outcome, t')) (hexit : outcome.ending = .exit 0) : R outcome t' := by
  cases h with
  | ok ha =>
    cases hrun
    exact (ha outcome t').2 ⟨rfl, rfl⟩
  | refuse =>
    cases hrun
    cases hexit
  | fail =>
    cases hrun
    cases hexit

end LetFun.Command
