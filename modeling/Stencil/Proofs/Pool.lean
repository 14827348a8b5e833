import Mathlib.Data.Finset.Card
import Mathlib.Logic.Hydra
import Mathlib.Logic.Relation
import Stencil.Proofs.Run

/-!
# Stencil — work side by side

A pool holds several pieces of work that are carried out in one world. At any
time one of them takes its next step, whichever it is, or one that has come to
its end hands in its result. With fewer workers than tasks only some of these
orders come up. The results are kept by the number of the task, in the order in
which they are handed in, and are read back by number at the end.

Main results:

* `exists_inTurn` — to carry out the work in turn is one way to go on;
* `wellFounded_step` — no pool goes on for ever;
* `results?_eq_some` — results are read back in the order of the work.
-/

namespace Stencil

open Relation

/-- Work carried out side by side. -/
structure Pool (α : Type) where
  world : World
  /-- What each task still has to do. -/
  tasks : List (Script (Except Failure α))
  /-- The results that were handed in, the latest first, by the number of the task. -/
  handed : List (Nat × α)

namespace Pool

variable {α β : Type}

/-- A pool of work that is about to begin. -/
def start (works : List (Work α)) (w : World) : Pool α :=
  ⟨w, works.map ExceptT.run, []⟩

/-- What can happen next in a pool. Work that fails hands nothing in. -/
inductive Step : Pool α → Pool α → Prop
  | advance {p : Pool α} {i : Nat} {call : Call} {next : call.Answer → Script (Except Failure α)}
      (h : p.tasks[i]? = some (.ask call next)) :
      Step p ⟨(p.world.perform call).2, p.tasks.set i (next (p.world.perform call).1), p.handed⟩
  | handIn {p : Pool α} {i : Nat} {a : α} (h : p.tasks[i]? = some (.done (.ok a)))
      (hnew : i ∉ p.handed.map (·.1)) : Step p { p with handed := (i, a) :: p.handed }

/-- Whether one pool can come out of another one, step by step. -/
def Reaches : Pool α → Pool α → Prop :=
  ReflTransGen Step

/-- Whether every task has come to its end. -/
def IsDone (p : Pool α) : Prop :=
  ∀ i < p.tasks.length, ∃ result, p.tasks[i]? = some (.done result)

/-- Whether every task has handed in its result. -/
def IsFinished (p : Pool α) : Prop :=
  ∀ i < p.tasks.length, i ∈ p.handed.map (·.1)

/-- The results in the order of the tasks. -/
def results? (p : Pool α) : Option (List α) :=
  (List.range p.tasks.length).mapM fun i => p.handed.lookup i

variable {p p' : Pool α} {i : Nat} {s : Script (Except Failure α)}

/-! ## Going on -/

/-- A task can be carried out to its end before anything else happens. -/
theorem reaches_run (h : p.tasks[i]? = some s) :
    Reaches p ⟨(s.run p.world).2, p.tasks.set i (.done (s.run p.world).1), p.handed⟩ := by
  -- on what is left of the task
  induction s generalizing p with
  | done result =>
    have hset : p.tasks.set i (.done result) = p.tasks := by
      obtain ⟨hi, hget⟩ := List.getElem?_eq_some_iff.mp h
      rw [← hget]
      exact List.set_getElem_self hi
    rw [Script.run_done, hset]
    exact .refl
  | ask call next ih =>
    have hi : i < p.tasks.length := (List.getElem?_eq_some_iff.mp h).1
    have hnext := ih (p.world.perform call).1
      (p := ⟨(p.world.perform call).2, p.tasks.set i (next (p.world.perform call).1), p.handed⟩)
      (by rw [List.getElem?_set_self hi])
    rw [List.set_set] at hnext
    exact .head (.advance h) hnext

/-- **In turn.** Work that succeeds when it is carried out in turn can be carried
out in this way in a pool. -/
theorem reaches_mapM {f : β → Work α} {xs : List β} {as : List α} {v : World}
    {before : List (Script (Except Failure α))}
    (htasks : p.tasks = before ++ xs.map fun x => ExceptT.run (f x))
    (hrun : (xs.mapM f).runIn p.world = (.ok as, v)) :
    Reaches p ⟨v, before ++ as.map fun a => .done (.ok a), p.handed⟩ := by
  -- on the work; what is done joins the tasks before
  induction xs generalizing p before as with
  | nil =>
    obtain ⟨hnil, rfl⟩ := Prod.mk.inj hrun
    obtain rfl := Except.ok.inj hnil
    rw [List.map_nil] at htasks
    rw [List.reverse_nil, List.map_nil, ← htasks]
    exact .refl
  | cons x xs ih =>
    obtain ⟨a, as', w₁, hfirst, hrest, rfl⟩ := Work.mapM_runIn_cons_ok hrun
    have hget : p.tasks[before.length]? = some (ExceptT.run (f x)) := by
      rw [htasks, List.map_cons, List.getElem?_append_right (Nat.le_refl _), Nat.sub_self]
      rfl
    have hstep := reaches_run hget
    have hset : p.tasks.set before.length (.done (.ok a)) =
        (before ++ [.done (.ok a)]) ++ xs.map fun x => ExceptT.run (f x) := by
      rw [htasks, List.map_cons, List.set_append_right _ _ (Nat.le_refl _), Nat.sub_self]
      simp
    rw [show Script.run (ExceptT.run (f x)) p.world = _ from hfirst, hset] at hstep
    have hothers : Reaches ⟨w₁, before ++ [.done (.ok a)] ++ _, p.handed⟩
        ⟨v, before ++ [.done (.ok a)] ++ as'.map fun a => .done (.ok a), p.handed⟩ := ih rfl hrest
    rw [List.append_assoc before _ (as'.map _), List.singleton_append] at hothers
    exact hstep.trans hothers

/-- In particular, a pool that begins can come to where the work in turn ends. -/
theorem exists_inTurn {f : β → Work α} {xs : List β} {as : List α} {w v : World}
    (hrun : (xs.mapM f).runIn w = (.ok as, v)) :
    ∃ p, Reaches (start (xs.map f) w) p ∧ p.IsDone ∧ p.world = v := by
  have htasks : (start (xs.map f) w).tasks = [] ++ xs.map fun x => ExceptT.run (f x) := by
    simp [start]
  refine ⟨_, reaches_mapM htasks hrun, fun i hi => ?_, rfl⟩
  rw [List.nil_append] at hi ⊢
  rw [List.getElem?_eq_getElem hi, List.getElem_map]
  exact ⟨_, rfl⟩

/-! ## Coming to an end -/

/-- One script is what is left of another one after its next step. -/
inductive IsLeft : Script α → Script α → Prop
  | intro (call : Call) (next : call.Answer → Script α) (answer : call.Answer) :
      IsLeft (next answer) (.ask call next)

theorem wellFounded_isLeft : WellFounded (IsLeft (α := α)) := by
  refine ⟨fun s => ?_⟩
  induction s with
  | done a => exact ⟨_, fun s hs => by cases hs⟩
  | ask call next ih =>
    refine ⟨_, fun s hs => ?_⟩
    cases hs with
    | intro _ _ answer => exact ih answer

/-- The numbers of the tasks that have not handed in yet. -/
def pending (p : Pool α) : Finset Nat :=
  (Finset.range p.tasks.length).filter (· ∉ p.handed.map (·.1))

/-- What is still to be done: the tasks, then the results to hand in. -/
def burden (p : Pool α) : Multiset (Script (Except Failure α)) × Nat :=
  (p.tasks, p.pending.card)

private theorem cutExpand_set {s s' : Script (Except Failure α)} (h : p.tasks[i]? = some s)
    (hleft : IsLeft s' s) :
    CutExpand IsLeft (p.tasks.set i s' : Multiset (Script (Except Failure α))) p.tasks := by
  obtain ⟨hi, hget⟩ := List.getElem?_eq_some_iff.mp h
  obtain ⟨before, after, htasks, -, hset⟩ :
      ∃ before after, p.tasks = before ++ p.tasks[i] :: after ∧ before.length = i ∧
        p.tasks.set i s' = before ++ s' :: after := List.exists_of_set hi
  rw [hget] at htasks
  rw [hset]
  refine ⟨{s'}, s, by simpa using hleft, ?_⟩
  -- the same tasks, but for the one that went on
  rw [htasks, Multiset.add_comm, Multiset.add_comm _ {s'}]
  simp only [← Multiset.coe_singleton, Multiset.coe_add, Multiset.coe_eq_coe,
    List.singleton_append]
  exact (List.Perm.cons s List.perm_middle).trans
    ((List.Perm.swap s' s _).trans (List.Perm.cons s' List.perm_middle.symm))

/-- **No pool goes on for ever**, whatever the order of the steps: each one brings a
task closer to its end or hands a result in. -/
theorem wellFounded_step : WellFounded fun p' p : Pool α => Step p p' := by
  have hlex : WellFounded (Prod.Lex (CutExpand (IsLeft (α := Except Failure α)))
      fun m n : Nat => m < n) :=
    WellFounded.prod_lex wellFounded_isLeft.cutExpand Nat.lt_wfRel.wf
  refine Subrelation.wf (fun {p' p} hstep => ?_) (InvImage.wf burden hlex)
  cases hstep with
  | advance h => exact .left _ _ (cutExpand_set h (.intro _ _ _))
  | @handIn i a h hnew =>
    refine .right _ (Finset.card_lt_card ?_)
    obtain ⟨hi, -⟩ := List.getElem?_eq_some_iff.mp h
    rw [Finset.ssubset_iff_of_subset]
    · refine ⟨i, ?_, ?_⟩
      · simp [pending, hi, hnew]
      · simp [pending]
    · intro j hj
      simp only [pending, Finset.mem_filter, List.map_cons, List.mem_cons, not_or] at hj ⊢
      exact ⟨hj.1, hj.2.2⟩

/-! ## Results -/

/-- What was handed in is the result of the task with that number. -/
def IsHonest (p : Pool α) : Prop :=
  ∀ x ∈ p.handed, p.tasks[x.1]? = some (.done (.ok x.2))

theorem isHonest_start (works : List (Work α)) (w : World) : (start works w).IsHonest := by
  intro x hx
  exact absurd hx List.not_mem_nil

theorem IsHonest.step (h : p.IsHonest) (hstep : Step p p') : p'.IsHonest := by
  cases hstep with
  | @advance i call next hask =>
    intro x hx
    have hdone := h x hx
    -- what has come to its end does not go on
    have hne : i ≠ x.1 := by
      rintro rfl
      rw [hdone] at hask
      simp at hask
    show (p.tasks.set i _)[x.1]? = _
    rw [List.getElem?_set_ne hne, hdone]
  | @handIn i a hdone hnew =>
    intro x hx
    rcases List.mem_cons.mp hx with rfl | hx
    · exact hdone
    · exact h x hx

theorem IsHonest.reaches (h : p.IsHonest) (hreaches : Reaches p p') : p'.IsHonest := by
  induction hreaches with
  | refl => exact h
  | tail _ hstep ih => exact ih.step hstep

/-- When all tasks have handed in, they have all come to their end. -/
theorem IsHonest.exists_done (h : p.IsHonest) (hfinished : p.IsFinished)
    (hi : i < p.tasks.length) : ∃ a, (i, a) ∈ p.handed ∧ p.tasks[i]? = some (.done (.ok a)) := by
  obtain ⟨x, hx, rfl⟩ := List.mem_map.mp (hfinished i hi)
  exact ⟨x.2, hx, h x hx⟩

theorem IsHonest.isDone (h : p.IsHonest) (hfinished : p.IsFinished) : p.IsDone := by
  intro i hi
  obtain ⟨a, -, hdone⟩ := h.exists_done hfinished hi
  exact ⟨_, hdone⟩

/-- Looking up every number in order gives the values in order. -/
private theorem mapM_range {f : Nat → Option α} {as : List α}
    (h : ∀ i < as.length, f i = as[i]?) : (List.range as.length).mapM f = some as := by
  induction as generalizing f with
  | nil => rfl
  | cons a as ih =>
    have hfirst : f 0 = some a := h 0 (by simp)
    have hrest : (List.range as.length).mapM (f ∘ Nat.succ) = some as :=
      ih fun i hi => by simpa using h (i + 1) (by simpa using hi)
    rw [List.length_cons, List.range_succ_eq_map, List.mapM_cons, hfirst, List.mapM_map, hrest]
    rfl

/-- **The results are read back in the order of the tasks**, whatever the order in
which they were handed in. -/
theorem IsHonest.results?_eq_some (h : p.IsHonest) (hfinished : p.IsFinished) {as : List α}
    (hlength : p.tasks.length = as.length)
    (has : ∀ (i : Nat) (a : α), p.tasks[i]? = some (.done (.ok a)) → as[i]? = some a) :
    p.results? = some as := by
  rw [results?, hlength]
  apply mapM_range
  intro i hi
  obtain ⟨a, hmem, hdone⟩ := h.exists_done hfinished (hlength ▸ hi)
  rw [has i a hdone]
  -- the number was handed in, and whatever was handed in with it is the result
  have hsome : (p.handed.lookup i).isSome = true := by
    rw [List.lookup_isSome_iff]
    exact ⟨(i, a), hmem, by simp⟩
  obtain ⟨b, hb⟩ := Option.isSome_iff_exists.mp hsome
  obtain ⟨front, back, hsplit, -⟩ := List.lookup_eq_some_iff.mp hb
  have hbdone := h (i, b) (by rw [hsplit]; simp)
  rw [hdone] at hbdone
  simp only [Option.some.injEq, Script.done.injEq, Except.ok.injEq] at hbdone
  rw [hb, hbdone]

end Pool

end Stencil
