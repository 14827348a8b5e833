import Stencil.Proofs.Confined
import Stencil.Proofs.Pool

/-!
# Stencil — independent work

A piece of work in a pool is compared with its run on its own, which starts in
the same world. The two worlds drift apart, but as long as they stand in a
relation that the work relies on, every step is answered alike in both. Work is
independent if what each piece relies on cannot be lost by what the others
change. Then every piece of work in the pool is always at a point of its own
run, and all that a finished pool can be asked is told by the runs on their own.

Main results:

* `Independent.onCourse` — what every step of a pool keeps;
* `OnCourse.exists_step` — a pool goes on until it is finished;
* `OnCourse.results_eq` — the results, in the order of the work;
* `OnCourse.look_eq` — the disk in the end.
-/

namespace Stencil

open Stencil.Disk Relation

/-! ## Scripts in step with a run on their own -/

/-- What a step comes to in a world `v` and in the world of the run on its own: the
answer is the same, the worlds stay related, and only such places have changed. -/
structure World.StepAlong {α : Type} (R : World → World → Prop) (T : Place → Prop) (v : World)
    (x y : α × World) : Prop where
  answer : y.1 = x.1
  related : R x.2 y.2
  confined : Confined T v y.2

/-- Every world related to the one of the run on its own takes the step along. -/
def Call.GoesAlong (R : World → World → Prop) (T : Place → Prop) (call : Call) (u : World) : Prop :=
  ∀ v, R u v → World.StepAlong R T v (u.perform call) (v.perform call)

/-- So do all steps of a script that is carried out on its own. -/
def Script.GoesAlong {α : Type} (R : World → World → Prop) (T : Place → Prop) :
    Script α → World → Prop
  | .done _, _ => True
  | .ask call next, u =>
    call.GoesAlong R T u ∧ (next (u.perform call).1).GoesAlong R T (u.perform call).2

namespace Script.GoesAlong

variable {α β : Type} {R : World → World → Prop} {T : Place → Prop} {s : Script α} {u : World}

theorem bind {f : α → Script β} (h : s.GoesAlong R T u)
    (hnext : (f (s.run u).1).GoesAlong R T (s.run u).2) : (s.bind f).GoesAlong R T u := by
  -- on the first script; the second one starts where it ends
  induction s generalizing u with
  | done a => exact hnext
  | ask call next ih => exact ⟨h.1, ih _ h.2 hnext⟩

theorem step {call : Call} (h : call.GoesAlong R T u) : (Script.step call).GoesAlong R T u :=
  ⟨h, trivial⟩

/-- **A script that stays below a site** relies on what is at the site. -/
theorem of_stays {base : Path} {top : Place} (h : s.Stays base top u) :
    s.GoesAlong (World.Alike base top) (top <:+ ·) u := by
  induction s generalizing u with
  | done a => trivial
  | ask call next ih =>
    obtain ⟨hlocal, hnext⟩ := h
    refine ⟨fun v hv => ?_, ih _ hnext⟩
    have hstep := hlocal v hv
    exact ⟨hstep.answer, hlocal.alike hv, hstep.confined⟩

end Script.GoesAlong

namespace Work

/-- Work whose steps all go along with its run on its own. -/
def GoesAlong {α : Type} (R : World → World → Prop) (T : Place → Prop) (work : Work α)
    (u : World) : Prop :=
  Script.GoesAlong R T (ExceptT.run work) u

namespace GoesAlong

variable {α β : Type} {R : World → World → Prop} {T : Place → Prop} {u : World}

theorem pure (a : α) : GoesAlong R T (Pure.pure a : Work α) u :=
  trivial

theorem throw (failure : Failure) : GoesAlong R T (MonadExcept.throw failure : Work α) u :=
  trivial

theorem bind {work : Work α} {next : α → Work β} (h : work.GoesAlong R T u)
    (hnext : ∀ a u', work.runIn u = (.ok a, u') → (next a).GoesAlong R T u') :
    GoesAlong R T (work >>= next) u := by
  show Script.GoesAlong R T (Script.bind (ExceptT.run work) (ExceptT.bindCont next)) u
  refine Script.GoesAlong.bind h ?_
  rcases hrun : work.runIn u with ⟨_ | a, u'⟩
  · rw [show Script.run (ExceptT.run work) u = _ from hrun]
    trivial
  · rw [show Script.run (ExceptT.run work) u = _ from hrun]
    exact hnext a u' hrun

theorem outcome {work : Work α} (h : work.GoesAlong R T u) :
    (Work.outcome work).GoesAlong R T u := by
  show Script.GoesAlong R T
    (Script.bind (ExceptT.run work) fun a => Script.done (Except.ok a)) u
  exact Script.GoesAlong.bind h trivial

theorem granted {s : Script (Except Fault α)} (h : s.GoesAlong R T u) :
    (Work.granted s).GoesAlong R T u := by
  show Script.GoesAlong R T (Script.bind s _) u
  refine Script.GoesAlong.bind h ?_
  cases (s.run u).1 <;> exact trivial

theorem log {severity : Log.Severity} {topic : Log.Topic} {message : String}
    (h : Call.GoesAlong R T (.log ⟨severity, topic, message⟩) u) :
    (Work.log severity topic message).GoesAlong R T u :=
  Script.GoesAlong.bind (.step h) trivial

end GoesAlong

end Work

/-! ## Work that is independent -/

/-- What is relied on is not lost by changes at such places. -/
def Shields (R : World → World → Prop) (S : Place → Prop) : Prop :=
  ∀ ⦃u v v'⦄, R u v → World.Confined S v v' → R u v'

variable {α β : Type}

/-- Pieces of work that do not lose what they rely on by each other. Each has its
own places, and it relies on what lies there. -/
structure Independent (f : β → Work α) (R : β → World → World → Prop) (T : β → Place → Prop)
    (xs : List β) (w : World) : Prop where
  start : ∀ x ∈ xs, R x w w
  goes : ∀ x ∈ xs, (f x).GoesAlong (R x) (T x) w
  apart : xs.Pairwise fun x y => Shields (R x) (T y) ∧ Shields (R y) (T x)
  own : ∀ x ∈ xs, ∀ u v, R x u v → ∀ q, T x q → v.disk.look q = u.disk.look q

/-- Every task of a pool is at a point of its run on its own. -/
structure OnCourse (f : β → Work α) (R : β → World → World → Prop) (T : β → Place → Prop)
    (xs : List β) (w : World) (p : Pool α) : Prop where
  length : p.tasks.length = xs.length
  task : ∀ (i : Nat) (x : β) (s : Script (Except Failure α)), xs[i]? = some x →
    p.tasks[i]? = some s →
      ∃ u, R x u p.world ∧ s.GoesAlong (R x) (T x) u ∧ s.run u = (f x).runIn w
  confined : World.Confined (fun q => ∃ x ∈ xs, T x q) w p.world

section Runs

variable {f : β → Work α} {R : β → World → World → Prop} {T : β → Place → Prop} {xs : List β}
  {w : World} {p p' : Pool α} {i : Nat} {x : β}

/-- Two different tasks do not get in each other's way. -/
theorem Independent.shields (h : Independent f R T xs w) {j : Nat} {y : β} (hx : xs[i]? = some x)
    (hy : xs[j]? = some y) (hij : i ≠ j) : Shields (R x) (T y) := by
  obtain ⟨hi, rfl⟩ := List.getElem?_eq_some_iff.mp hx
  obtain ⟨hj, rfl⟩ := List.getElem?_eq_some_iff.mp hy
  rcases Nat.lt_or_gt_of_ne hij with hlt | hgt
  · exact (List.pairwise_iff_getElem.mp h.apart i j hi hj hlt).1
  · exact (List.pairwise_iff_getElem.mp h.apart j i hj hi hgt).2

theorem Independent.onCourse_start (h : Independent f R T xs w) :
    OnCourse f R T xs w (Pool.start (xs.map f) w) := by
  refine ⟨by simp [Pool.start], ?_, .refl _ w⟩
  intro i x s hx hs
  have hmem : x ∈ xs := List.mem_of_getElem? hx
  have htask : ExceptT.run (f x) = s := by simpa [Pool.start, hx] using hs
  rw [← htask]
  exact ⟨w, h.start x hmem, h.goes x hmem, rfl⟩

/-- Every task is one of the pieces of work. -/
theorem OnCourse.exists_getElem (hp : OnCourse f R T xs w p) {s : Script (Except Failure α)}
    (hs : p.tasks[i]? = some s) : ∃ x, xs[i]? = some x := by
  obtain ⟨hi, -⟩ := List.getElem?_eq_some_iff.mp hs
  exact ⟨_, List.getElem?_eq_getElem (hp.length ▸ hi)⟩

/-- **What every step keeps**: the task that goes on takes its next step as on its
own, and the others do not notice. -/
theorem OnCourse.step (hp : OnCourse f R T xs w p) (h : Independent f R T xs w)
    (hstep : Pool.Step p p') : OnCourse f R T xs w p' := by
  cases hstep with
  | handIn hdone hnew => exact ⟨hp.length, hp.task, hp.confined⟩
  | @advance i call next hask =>
    obtain ⟨hi, -⟩ := List.getElem?_eq_some_iff.mp hask
    obtain ⟨x, hx⟩ := hp.exists_getElem hask
    obtain ⟨u, hrelated, ⟨hcall, hnext⟩, hrun⟩ := hp.task i x _ hx hask
    have hone := hcall p.world hrelated
    refine ⟨by rw [List.length_set, hp.length], ?_, ?_⟩
    · intro j y s hy hs
      by_cases hij : i = j
      · -- the task goes on, and so does its run on its own
        subst hij
        obtain rfl : x = y := Option.some.inj (hx.symm.trans hy)
        obtain rfl : next (p.world.perform call).1 = s := by
          rw [List.getElem?_set_self hi] at hs
          exact Option.some.inj hs
        rw [hone.answer]
        exact ⟨(u.perform call).2, hone.related, hnext, hrun⟩
      · -- what the other task relies on is not touched
        rw [List.getElem?_set_ne hij] at hs
        obtain ⟨u', hother, hgoes, hrun'⟩ := hp.task j y s hy hs
        have hshields := h.shields hy hx (Ne.symm hij)
        exact ⟨u', hshields hother hone.confined, hgoes, hrun'⟩
    · have hmem : x ∈ xs := List.mem_of_getElem? hx
      exact hp.confined.trans (hone.confined.mono fun q hq => ⟨x, hmem, hq⟩)

theorem OnCourse.reaches (hp : OnCourse f R T xs w p) (h : Independent f R T xs w)
    (hreaches : Pool.Reaches p p') : OnCourse f R T xs w p' := by
  induction hreaches with
  | refl => exact hp
  | tail _ hstep ih => exact ih.step h hstep

/-- **Whatever happens in a pool**, its tasks stay on course. -/
theorem Independent.onCourse (h : Independent f R T xs w)
    (hreaches : Pool.Reaches (Pool.start (xs.map f) w) p) : OnCourse f R T xs w p :=
  h.onCourse_start.reaches h hreaches

/-- A task that has come to its end has come to what it comes to on its own. -/
theorem OnCourse.of_done (hp : OnCourse f R T xs w p) {result : Except Failure α}
    (hx : xs[i]? = some x) (hdone : p.tasks[i]? = some (.done result)) :
    ((f x).runIn w).1 = result ∧ R x ((f x).runIn w).2 p.world := by
  obtain ⟨u, hrelated, -, hrun⟩ := hp.task i x _ hx hdone
  rw [← hrun]
  exact ⟨rfl, hrelated⟩

end Runs

/-! ## What a pool comes to -/

/-- On its own, all of the work succeeds, with these results. -/
def Succeed (f : β → Work α) (xs : List β) (w : World) (as : List α) : Prop :=
  (xs.map fun x => ((f x).runIn w).1) = as.map .ok

section Finished

variable {f : β → Work α} {R : β → World → World → Prop} {T : β → Place → Prop} {xs : List β}
  {w : World} {p p' : Pool α} {as : List α} {i : Nat}

/-- If each piece of work succeeds, there are such results. -/
theorem Succeed.exists_of_forall (h : ∀ x ∈ xs, ∃ a, ((f x).runIn w).1 = .ok a) :
    ∃ as, Succeed f xs w as := by
  induction xs with
  | nil => exact ⟨[], rfl⟩
  | cons x xs ih =>
    obtain ⟨a, ha⟩ := h x (by simp)
    obtain ⟨as, has⟩ := ih fun y hy => h y (by simp [hy])
    unfold Succeed at has ⊢
    exact ⟨a :: as, by rw [List.map_cons, List.map_cons, ha, has]⟩

theorem Succeed.exists_of_getElem (h : Succeed f xs w as) {x : β} (hx : xs[i]? = some x) :
    ∃ a, as[i]? = some a ∧ ((f x).runIn w).1 = .ok a := by
  have hi := congrArg (·[i]?) h
  simp only [List.getElem?_map, hx, Option.map_some] at hi
  obtain ⟨a, ha, heq⟩ := Option.map_eq_some_iff.mp hi.symm
  exact ⟨a, ha, heq.symm⟩

/-- The result of a task that has come to its end. -/
theorem OnCourse.done_eq (hp : OnCourse f R T xs w p) (has : Succeed f xs w as)
    {result : Except Failure α} (hdone : p.tasks[i]? = some (.done result)) :
    ∃ a, as[i]? = some a ∧ result = .ok a := by
  obtain ⟨x, hx⟩ := hp.exists_getElem hdone
  obtain ⟨a, ha, hok⟩ := has.exists_of_getElem hx
  exact ⟨a, ha, (hp.of_done hx hdone).1.symm.trans hok⟩

/-- **As long as a pool is not finished, it can go on**: no task waits for another
one, and none fails. -/
theorem OnCourse.exists_step (hp : OnCourse f R T xs w p) (has : Succeed f xs w as)
    (hopen : ¬ p.IsFinished) : ∃ p', Pool.Step p p' := by
  obtain ⟨i, hi, hnew⟩ : ∃ i < p.tasks.length, i ∉ p.handed.map (·.1) := by
    simpa only [Pool.IsFinished, not_forall, exists_prop] using hopen
  cases htask : p.tasks[i] with
  | ask call next => exact ⟨_, .advance (List.getElem?_eq_some_iff.mpr ⟨hi, htask⟩)⟩
  | done result =>
    have hdone : p.tasks[i]? = some (.done result) := List.getElem?_eq_some_iff.mpr ⟨hi, htask⟩
    obtain ⟨a, -, rfl⟩ := hp.done_eq has hdone
    exact ⟨_, .handIn hdone hnew⟩

/-- **The results of a finished pool** are those of the work on its own, in order. -/
theorem OnCourse.results_eq (hp : OnCourse f R T xs w p) (has : Succeed f xs w as)
    (hhonest : p.IsHonest) (hfinished : p.IsFinished) : p.results? = some as := by
  have hlength : xs.length = as.length := by simpa using congrArg List.length has
  refine hhonest.results?_eq_some hfinished (hp.length.trans hlength) ?_
  intro i a hdone
  obtain ⟨a', ha', hok⟩ := hp.done_eq has hdone
  rw [ha', Except.ok.inj hok]

/-- **The disk in the end**: at the places of each piece of work there is what its
own run leaves there, and everywhere else nothing has changed. -/
theorem OnCourse.look_eq (hp : OnCourse f R T xs w p) (hp' : OnCourse f R T xs w p')
    (h : Independent f R T xs w) (hdone : p.IsDone) (hdone' : p'.IsDone) (q : Place)
    (hlog : w.logPlace? ≠ some q) : p'.world.disk.look q = p.world.disk.look q := by
  by_cases hq : ∃ x ∈ xs, T x q
  · obtain ⟨x, hx, hown⟩ := hq
    obtain ⟨i, hi, rfl⟩ := List.getElem_of_mem hx
    -- both pools agree there with the run of the task on its own
    have hlook : ∀ {p : Pool α}, OnCourse f R T xs w p → p.IsDone →
        p.world.disk.look q = ((f xs[i]).runIn w).2.disk.look q := by
      intro p hp hdone
      obtain ⟨result, hresult⟩ := hdone i (hp.length ▸ hi)
      exact h.own _ hx _ _ (hp.of_done (List.getElem?_eq_getElem hi) hresult).2 q hown
    rw [hlook hp hdone, hlook hp' hdone']
  · rw [hp.confined.unlogged q hq hlog, hp'.confined.unlogged q hq hlog]

end Finished

end Stencil
