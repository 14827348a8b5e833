import Mathlib.Data.List.Forall2
import Stencil.Work
import Stencil.World

/-!
# Stencil — work carried out in a world

`Work.runIn` carries work out and gives its outcome and the world after it.
Runs are taken apart step by step: a run of two pieces of work is a run of the
first and, if that succeeds, one of the second in the world it leaves.

Main results:

* `runIn_bind`, `runIn_outcome` and one equation for each request;
* `mapM_runIn_cons_ok`, `mapM_runIn_error` — the runs that a run over a list is
  made of, up to the first failure;
* `FailsOnly`, `Gives`, `Keeps` — which failures work can end with, which values
  it can come to, and what it does to its world in any case, for each way to
  combine it.
-/

namespace Stencil.Work

open Stencil.Disk

/-- The outcome of work in a world, and the world after it. -/
def runIn {α : Type} (work : Work α) (w : World) : Except Failure α × World :=
  Script.run (ExceptT.run work) w

/-! ## Combined work -/

section Combined

variable {α β : Type}

@[simp]
theorem runIn_pure (a : α) (w : World) : (pure a : Work α).runIn w = (.ok a, w) :=
  rfl

@[simp]
theorem runIn_throw (failure : Failure) (w : World) :
    (throw failure : Work α).runIn w = (.error failure, w) :=
  rfl

theorem runIn_bind (work : Work α) (next : α → Work β) (w : World) :
    (work >>= next).runIn w =
      match work.runIn w with
      | (.ok a, w') => (next a).runIn w'
      | (.error failure, w') => (.error failure, w') := by
  show (Script.bind (ExceptT.run work) (ExceptT.bindCont next)).run w = _
  rw [Script.run_bind, runIn]
  obtain ⟨_ | _, w'⟩ := Script.run (ExceptT.run work) w <;> rfl

theorem runIn_bind_of_ok {work : Work α} {next : α → Work β} {w w' : World} {a : α}
    (h : work.runIn w = (.ok a, w')) : (work >>= next).runIn w = (next a).runIn w' := by
  rw [runIn_bind, h]

/-- A successful run of two pieces of work. -/
theorem runIn_bind_ok {work : Work α} {next : α → Work β} {w w' : World} {b : β}
    (h : (work >>= next).runIn w = (.ok b, w')) :
    ∃ a w₁, work.runIn w = (.ok a, w₁) ∧ (next a).runIn w₁ = (.ok b, w') := by
  rw [runIn_bind] at h
  split at h
  · rename_i a w₁ heq
    exact ⟨a, w₁, heq, h⟩
  · simp at h

/-- A failed run of two pieces of work fails in one of them. -/
theorem runIn_bind_error {work : Work α} {next : α → Work β} {w w' : World}
    {failure : Failure} (h : (work >>= next).runIn w = (.error failure, w')) :
    work.runIn w = (.error failure, w') ∨
      ∃ a w₁, work.runIn w = (.ok a, w₁) ∧ (next a).runIn w₁ = (.error failure, w') := by
  rw [runIn_bind] at h
  split at h
  · rename_i a w₁ heq
    exact .inr ⟨a, w₁, heq, h⟩
  · rename_i failure' w₁ heq
    obtain ⟨hfailure, rfl⟩ := Prod.mk.inj h
    obtain rfl := Except.error.inj hfailure
    exact .inl heq

@[simp]
theorem runIn_outcome (work : Work α) (w : World) :
    (outcome work).runIn w = (.ok (work.runIn w).1, (work.runIn w).2) := by
  show Script.run (Script.bind (ExceptT.run work) fun a => Script.done (Except.ok a)) w = _
  rw [Script.run_bind]
  rfl

theorem runIn_ofExcept {ε : Type} (toFailure : ε → Failure) (result : Except ε α) (w : World) :
    (ofExcept toFailure result).runIn w = (result.mapError toFailure, w) := by
  cases result <;> rfl

theorem mapError_eq_ok {ε ε' : Type} {f : ε → ε'} {result : Except ε α} {a : α} :
    result.mapError f = .ok a ↔ result = .ok a := by
  cases result <;> simp [Except.mapError]

theorem runIn_ofExcept_eq_ok {ε : Type} {toFailure : ε → Failure} {result : Except ε α} {a : α}
    {w w' : World} (h : (ofExcept toFailure result).runIn w = (.ok a, w')) :
    result = .ok a ∧ w' = w := by
  rw [runIn_ofExcept] at h
  obtain ⟨hresult, hworld⟩ := Prod.mk.inj h
  exact ⟨mapError_eq_ok.mp hresult, hworld.symm⟩

end Combined

/-! ## Requests -/

section Requests

variable {α : Type}

/-- What the disk answers, as the outcome of work. -/
def answered (answer : Except Fault α) : Except Failure α :=
  answer.mapError .disk

@[simp]
theorem answered_ok (a : α) : answered (.ok a) = .ok a :=
  rfl

@[simp]
theorem answered_error (fault : Fault) : answered (.error fault : Except Fault α) =
    .error (.disk fault) :=
  rfl

theorem answered_eq_error {answer : Except Fault α} {failure : Failure} :
    answered answer = .error failure ↔ ∃ fault, answer = .error fault ∧ failure = .disk fault := by
  cases answer with
  | ok a => simp
  | error fault => simp [eq_comm]

theorem runIn_granted (s : Script (Except Fault α)) (w : World) :
    (granted s).runIn w = (answered (s.run w).1, (s.run w).2) := by
  show Script.run (Script.bind s _) w = _
  rw [Script.run_bind]
  obtain ⟨_ | _, w'⟩ := s.run w <;> rfl

theorem runIn_exists? (path : Path) (w : World) :
    (Work.exists? path).runIn w = (answered (w.disk.exists? path), w) :=
  runIn_granted _ w

theorem runIn_isFile? (path : Path) (w : World) :
    (Work.isFile? path).runIn w = (answered (w.disk.isFile? path), w) :=
  runIn_granted _ w

theorem runIn_isDirectory? (path : Path) (w : World) :
    (Work.isDirectory? path).runIn w = (answered (w.disk.isDirectory? path), w) :=
  runIn_granted _ w

theorem runIn_read (path : Path) (w : World) :
    (Work.read path).runIn w = (answered (w.disk.read path), w) :=
  runIn_granted _ w

theorem runIn_mode (path : Path) (w : World) :
    (Work.mode path).runIn w = (answered (w.disk.modeAt path), w) :=
  runIn_granted _ w

theorem runIn_makeDirectory (path : Path) (w : World) :
    (Work.makeDirectory path).runIn w =
      (answered (w.change (w.disk.makeDirectory path)).1,
        (w.change (w.disk.makeDirectory path)).2) :=
  runIn_granted _ w

theorem runIn_makeDirectory_eq_ok {path : Path} {w w' : World}
    (h : (Work.makeDirectory path).runIn w = (.ok (), w')) :
    ∃ d, w.disk.makeDirectory path = .ok d ∧ w' = { w with disk := d } := by
  rw [runIn_makeDirectory] at h
  cases hmade : w.disk.makeDirectory path with
  | error fault => simp [hmade, World.change] at h
  | ok d =>
    rw [hmade] at h
    exact ⟨d, rfl, (Prod.mk.inj h).2.symm⟩

theorem runIn_makeTemporary (path : Path) (w : World) :
    (Work.makeTemporary path).runIn w =
      (answered (w.perform (.makeTemporary path)).1, (w.perform (.makeTemporary path)).2) :=
  runIn_granted _ w

theorem runIn_makeTemporary_of_ok {path temporary : Path} {w : World} {d : Disk}
    (h : w.disk.makeTemporary path = .ok (temporary, d)) :
    (Work.makeTemporary path).runIn w = (.ok temporary, { w with disk := d }) := by
  rw [runIn_makeTemporary, World.perform, h]
  rfl

theorem runIn_makeTemporary_eq_ok {path temporary : Path} {w w' : World}
    (h : (Work.makeTemporary path).runIn w = (.ok temporary, w')) :
    ∃ d, w.disk.makeTemporary path = .ok (temporary, d) ∧ w' = { w with disk := d } := by
  cases hmade : w.disk.makeTemporary path with
  | error fault =>
    rw [runIn_makeTemporary, World.perform, hmade] at h
    simp at h
  | ok made =>
    rw [runIn_makeTemporary_of_ok hmade] at h
    obtain ⟨htemporary, rfl⟩ := Prod.mk.inj h
    obtain rfl := Except.ok.inj htemporary
    exact ⟨made.2, rfl, rfl⟩

theorem runIn_makeTemporary_eq_error {path : Path} {w w' : World} {failure : Failure}
    (h : (Work.makeTemporary path).runIn w = (.error failure, w')) :
    ∃ fault, w.disk.makeTemporary path = .error fault ∧ failure = .disk fault := by
  cases hmade : w.disk.makeTemporary path with
  | error fault =>
    rw [runIn_makeTemporary, World.perform, hmade] at h
    exact ⟨fault, rfl, (Except.error.inj (Prod.mk.inj h).1).symm⟩
  | ok made =>
    rw [runIn_makeTemporary_of_ok hmade] at h
    simp at h

theorem runIn_fill_of_ok {path : Path} {bytes : List UInt8} {w : World} {d : Disk}
    (h : w.disk.fill path bytes = .ok d) :
    (Work.fill path bytes).runIn w = (.ok (), { w with disk := d }) := by
  rw [Work.fill, runIn_granted]
  simp only [Script.step, Script.run, World.perform, h]
  rfl

theorem runIn_setMode_of_ok {path : Path} {mode : Nat} {w : World} {d : Disk}
    (h : w.disk.setMode path mode = .ok d) :
    (Work.setMode path mode).runIn w = (.ok (), { w with disk := d }) := by
  rw [Work.setMode, runIn_granted]
  simp only [Script.step, Script.run, World.perform, h]
  rfl

theorem runIn_rename (source target : Path) (w : World) :
    (Work.rename source target).runIn w =
      (answered (w.replace target (w.disk.rename source target)).1,
        (w.replace target (w.disk.rename source target)).2) :=
  runIn_granted _ w

theorem runIn_rename_of_ok {source target : Path} {w : World} {d : Disk}
    (h : w.disk.rename source target = .ok d) :
    (Work.rename source target).runIn w = (.ok (), { w.forget target with disk := d }) := by
  rw [runIn_rename, h]
  rfl

theorem runIn_rename_eq_ok {source target : Path} {w w' : World}
    (h : (Work.rename source target).runIn w = (.ok (), w')) :
    ∃ d, w.disk.rename source target = .ok d ∧ w' = { w.forget target with disk := d } := by
  rw [runIn_rename] at h
  cases hmoved : w.disk.rename source target with
  | error fault => simp [hmoved, World.replace] at h
  | ok d =>
    rw [hmoved] at h
    exact ⟨d, rfl, (Prod.mk.inj h).2.symm⟩

theorem runIn_resolve (path : Path) (w : World) :
    (Work.resolve path).runIn w = (answered (w.disk.resolve path), w) :=
  runIn_granted _ w

theorem runIn_resolve_eq_ok {path p : Path} {w w' : World}
    (h : (Work.resolve path).runIn w = (.ok p, w')) : w.disk.resolve path = .ok p ∧ w' = w := by
  rw [runIn_resolve] at h
  obtain ⟨hanswer, hworld⟩ := Prod.mk.inj h
  exact ⟨mapError_eq_ok.mp hanswer, hworld.symm⟩

@[simp]
theorem runIn_log (severity : Log.Severity) (topic : Log.Topic) (message : String)
    (w : World) :
    (Work.log severity topic message).runIn w = (.ok (), w.log ⟨severity, topic, message⟩) :=
  rfl

end Requests

/-! ## Lists of work -/

section Lists

variable {α β : Type}

/-- A run over a list that succeeds is one successful run after the other. -/
theorem mapM_runIn_cons_ok {f : α → Work β} {a : α} {as : List α} {bs : List β}
    {w w' : World} (h : ((a :: as).mapM f).runIn w = (.ok bs, w')) :
    ∃ b rest w₁, (f a).runIn w = (.ok b, w₁) ∧ (as.mapM f).runIn w₁ = (.ok rest, w') ∧
      bs = b :: rest := by
  rw [List.mapM_cons] at h
  obtain ⟨b, w₁, hb, h⟩ := runIn_bind_ok h
  obtain ⟨rest, w₂, hrest, h⟩ := runIn_bind_ok h
  obtain ⟨hbs, rfl⟩ := Prod.mk.inj h
  exact ⟨b, rest, w₁, hb, hrest, (Except.ok.inj hbs).symm⟩

/-- To keep the outcomes makes no difference to a run over a list that succeeds. -/
theorem mapM_outcome_runIn {f : α → Work β} {as : List α} {bs : List β} {w w' : World}
    (h : (as.mapM f).runIn w = (.ok bs, w')) :
    (as.mapM fun a => outcome (f a)).runIn w = (.ok (bs.map .ok), w') := by
  induction as generalizing w bs with
  | nil =>
    obtain ⟨hbs, rfl⟩ := Prod.mk.inj h
    obtain rfl := Except.ok.inj hbs
    rfl
  | cons a as ih =>
    obtain ⟨b, rest, w₁, hfirst, hrest, rfl⟩ := mapM_runIn_cons_ok h
    have houtcome : (outcome (f a)).runIn w = (.ok (.ok b), w₁) := by
      rw [runIn_outcome, hfirst]
    rw [List.mapM_cons, runIn_bind_of_ok houtcome, runIn_bind_of_ok (ih hrest)]
    rfl

/-- **A run over a list that fails** does so at some member, after successful
runs for those before it. -/
theorem mapM_runIn_error {f : α → Work β} {as : List α} {w w' : World} {failure : Failure}
    (h : (as.mapM f).runIn w = (.error failure, w')) :
    ∃ before a after bs w₁, as = before ++ a :: after ∧
      (before.mapM f).runIn w = (.ok bs, w₁) ∧ (f a).runIn w₁ = (.error failure, w') := by
  induction as generalizing w with
  | nil => simp at h
  | cons a as ih =>
    rw [List.mapM_cons] at h
    rcases runIn_bind_error h with h | ⟨b, w₁, hb, h⟩
    · exact ⟨[], a, as, [], w, rfl, rfl, h⟩
    · rcases runIn_bind_error h with h | ⟨rest, w₂, hrest, h⟩
      · obtain ⟨before, c, after, bs, w₂, rfl, hbefore, hc⟩ := ih h
        refine ⟨a :: before, c, after, b :: bs, w₂, rfl, ?_, hc⟩
        rw [List.mapM_cons, runIn_bind_of_ok hb, runIn_bind_of_ok hbefore]
        rfl
      · simp at h

end Lists

/-! ## Kinds of failures -/

/-- Work fails only in these ways, wherever it is carried out. -/
def FailsOnly {α : Type} (P : Failure → Prop) (work : Work α) : Prop :=
  ∀ w failure w', work.runIn w = (.error failure, w') → P failure

namespace FailsOnly

variable {α β : Type} {P Q : Failure → Prop}

theorem pure (a : α) : FailsOnly P (Pure.pure a : Work α) := by
  intro w failure w' h
  simp at h

theorem throw {failure : Failure} (h : P failure) :
    FailsOnly P (MonadExcept.throw failure : Work α) := by
  intro w failure' w' hrun
  rw [show (MonadExcept.throw failure : Work α).runIn w = (.error failure, w) from rfl] at hrun
  obtain rfl := Except.error.inj (Prod.mk.inj hrun).1
  exact h

theorem bind {work : Work α} {next : α → Work β} (h : FailsOnly P work)
    (hnext : ∀ a, FailsOnly P (next a)) : FailsOnly P (work >>= next) := by
  intro w failure w' hrun
  rcases runIn_bind_error hrun with hrun | ⟨a, w₁, -, hrun⟩
  · exact h w failure w' hrun
  · exact hnext a w₁ failure w' hrun

/-- Work that looks at the outcome of other work may pass its failure on. -/
theorem bind_outcome {work : Work α} {next : Except Failure α → Work β} (h : FailsOnly P work)
    (hok : ∀ a, FailsOnly P (next (.ok a)))
    (herror : ∀ failure, P failure → FailsOnly P (next (.error failure))) :
    FailsOnly P (Work.outcome work >>= next) := by
  intro w failure w' hrun
  rcases hwork : work.runIn w with ⟨result, w₁⟩
  rw [runIn_bind, runIn_outcome, hwork] at hrun
  cases result with
  | ok a => exact hok a w₁ failure w' hrun
  | error failure' => exact herror failure' (h w failure' w₁ hwork) w₁ failure w' hrun

theorem granted {s : Script (Except Fault α)}
    (h : ∀ w fault, (s.run w).1 = .error fault → P (.disk fault)) :
    FailsOnly P (Work.granted s) := by
  intro w failure w' hrun
  rw [runIn_granted] at hrun
  obtain ⟨fault, hfault, rfl⟩ := answered_eq_error.mp (Prod.mk.inj hrun).1
  exact h w fault hfault

theorem mapM {f : α → Work β} {as : List α} (h : ∀ a ∈ as, FailsOnly P (f a)) :
    FailsOnly P (as.mapM f) := by
  intro w failure w' hrun
  obtain ⟨before, a, after, bs, w₁, rfl, -, hrun⟩ := mapM_runIn_error hrun
  exact h a (by simp) w₁ failure w' hrun

end FailsOnly

/-! ## Kinds of values -/

/-- Work comes only to such values, wherever it is carried out. -/
def Gives {α : Type} (P : α → Prop) (work : Work α) : Prop :=
  ∀ w a w', work.runIn w = (.ok a, w') → P a

namespace Gives

variable {α β : Type} {P : α → Prop} {Q : β → Prop}

theorem any (work : Work α) : Gives (fun _ => True) work := fun _ _ _ _ => trivial

theorem pure {a : α} (h : P a) : Gives P (Pure.pure a : Work α) := by
  intro w b w' hrun
  rw [runIn_pure] at hrun
  obtain rfl := Except.ok.inj (Prod.mk.inj hrun).1
  exact h

theorem throw (failure : Failure) : Gives P (MonadExcept.throw failure : Work α) := by
  intro w a w' hrun
  rw [show (MonadExcept.throw failure : Work α).runIn w = (.error failure, w) from rfl] at hrun
  simp at hrun

theorem bind {work : Work α} {next : α → Work β} (h : Gives P work)
    (hnext : ∀ a, P a → Gives Q (next a)) : Gives Q (work >>= next) := by
  intro w b w' hrun
  obtain ⟨a, w₁, hfirst, hrun⟩ := runIn_bind_ok hrun
  exact hnext a (h w a w₁ hfirst) w₁ b w' hrun

/-- One value for each member of a list, in order. -/
theorem mapM {R : α → β → Prop} {f : α → Work β} {as : List α}
    (h : ∀ a ∈ as, Gives (R a) (f a)) : Gives (List.Forall₂ R as) (as.mapM f) := by
  induction as with
  | nil => exact .pure .nil
  | cons a as ih =>
    rw [List.mapM_cons]
    have hrest := ih fun a' ha' => h a' (List.mem_cons_of_mem a ha')
    exact .bind (h a (by simp)) fun b hb => .bind hrest fun bs hbs => .pure (.cons hb hbs)

end Gives

/-- What follows may fail only for values that do not come up. -/
theorem FailsOnly.bind_gives {α β : Type} {P : Failure → Prop} {Q : α → Prop} {work : Work α}
    {next : α → Work β} (h : FailsOnly P work) (hgives : Gives Q work)
    (hnext : ∀ a, Q a → FailsOnly P (next a)) : FailsOnly P (work >>= next) := by
  intro w failure w' hrun
  rcases runIn_bind_error hrun with hrun | ⟨a, w₁, hfirst, hrun⟩
  · exact h w failure w' hrun
  · exact hnext a (hgives w a w₁ hfirst) w₁ failure w' hrun

/-! ## What work keeps -/

/-- Work leads from every world to one that stands in this relation to it,
whether it succeeds or fails. -/
def Keeps {α : Type} (R : World → World → Prop) (work : Work α) : Prop :=
  ∀ w, R w (work.runIn w).2

namespace Keeps

variable {α β : Type} {R : World → World → Prop}

theorem of_runIn {work : Work α} (h : Keeps R work) {w w' : World} {result : Except Failure α}
    (hrun : work.runIn w = (result, w')) : R w w' := by
  have hw := h w
  rwa [hrun] at hw

theorem outcome {work : Work α} (h : Keeps R work) : Keeps R (Work.outcome work) := by
  intro w
  rw [runIn_outcome]
  exact h w

theorem granted {s : Script (Except Fault α)} (h : ∀ w, R w (s.run w).2) :
    Keeps R (Work.granted s) := by
  intro w
  rw [runIn_granted]
  exact h w

theorem pure (hrefl : ∀ w, R w w) (a : α) : Keeps R (Pure.pure a : Work α) :=
  hrefl

theorem throw (hrefl : ∀ w, R w w) (failure : Failure) :
    Keeps R (MonadExcept.throw failure : Work α) :=
  hrefl

theorem bind (htrans : ∀ w₁ w₂ w₃, R w₁ w₂ → R w₂ w₃ → R w₁ w₃) {work : Work α}
    {next : α → Work β} (h : Keeps R work) (hnext : ∀ a, Keeps R (next a)) :
    Keeps R (work >>= next) := by
  intro w
  have hw := h w
  rw [runIn_bind]
  split
  · -- the second piece of work starts where the first one stops
    rename_i a w₁ hrun
    rw [hrun] at hw
    exact htrans _ _ _ hw (hnext a w₁)
  · rename_i failure w₁ hrun
    rwa [hrun] at hw

end Keeps

end Stencil.Work
