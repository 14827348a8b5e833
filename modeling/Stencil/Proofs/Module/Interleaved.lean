import Stencil.Proofs.Independent
import Stencil.Proofs.Module.Batch

/-!
# Stencil — modules generated at the same time

When the modules of a batch are generated at the same time, their requests to
the disk come in any order, and so do their outcomes. A module relies on what is
in its directory, or, if that is not there, on the way to where it would be.
The other modules change neither. So as long as all modules are recorded on
their own, a batch comes to the same in every order, and in the same order as
the requests.

Main results:

* `Separate.independent` — modules whose directories lie apart are independent;
* `generateAll_of_inTurn` — modules in turn, whatever the number of jobs;
* `generateAll_anyOrder` — modules at the same time.
-/

namespace Stencil.Module

open Stencil.Disk Stencil.Work

/-! ## What a module relies on -/

section One

variable {r : Request} {w u v v' : World} {S T : Place → Prop}

/-- What the generation of a module relies on, in two worlds that come out of `w`: the
same in its directory, or nothing that could have made the directory. -/
inductive Relies (w : World) (r : Request) (u v : World) : Prop
  | there (hthere : w.disk.isDirectory? r.modulePath = .ok true)
      (halike : World.Alike r.modulePath (w.disk.spelled r.modulePath) u v)
  | gone (hgone : w.disk.isDirectory? r.modulePath ≠ .ok true) (S : Place → Prop)
      (hS : Elsewhere w.disk r S) (hu : World.Confined S w u) (hv : World.Confined S w v)

namespace Relies

/-- At the beginning the worlds are the same. -/
theorem start (h : Sound r w) : Relies w r w w := by
  by_cases hthere : w.disk.isDirectory? r.modulePath = .ok true
  · exact .there hthere (.refl (h.has hthere))
  · exact .gone hthere _ .empty (.refl _ w) (.refl _ w)

/-- Changes elsewhere do not matter. -/
theorem elsewhere (h : Relies w r u v) (hv : World.Confined S v v') (hS : Elsewhere w.disk r S) :
    Relies w r u v' := by
  cases h with
  | there hthere halike => exact .there hthere (halike.confined hv hS.below)
  | gone hgone S' hS' hu' hv' =>
    refine .gone hgone _ (hS'.union hS) (hu'.mono fun q hq => .inl hq) ?_
    exact (hv'.mono fun q hq => .inl hq).trans (hv.mono fun q hq => .inr hq)

/-- The same lies in the directory. -/
theorem look_eq (h : Relies w r u v) (hr : Sound r w) {q : Place}
    (hq : w.disk.spelled r.modulePath <:+ q) : v.disk.look q = u.disk.look q := by
  cases h with
  | there hthere halike => exact halike.same.look q hq
  | gone hgone S hS hu hv =>
    have hnot := hS.below q hq
    rw [hu.unlogged q hnot (hr.unlogged q hq), hv.unlogged q hnot (hr.unlogged q hq)]

/-- If there is a directory, that is all there is to it. -/
theorem eq_alike (hthere : w.disk.isDirectory? r.modulePath = .ok true) :
    Relies w r = World.Alike r.modulePath (w.disk.spelled r.modulePath) := by
  funext u v
  refine propext ⟨fun h => ?_, .there hthere⟩
  cases h with
  | there _ halike => exact halike
  | gone hgone => exact absurd hthere hgone

/-- Records go to the log. -/
theorem goesAlong_log (hgone : w.disk.isDirectory? r.modulePath ≠ .ok true)
    (record : Log.Record) : Call.GoesAlong (Relies w r) T (.log record) u := by
  intro v h
  cases h with
  | there hthere => exact absurd hthere hgone
  | gone _ S hS hu hv =>
    refine ⟨rfl, .gone hgone S hS (hu.trans ?_) (hv.trans ?_), ?_⟩
    · exact .of_logged (.log u record)
    · exact .of_logged (.log v record)
    · exact .of_logged (.log v record)

/-- The directory is missed in all worlds. -/
theorem goesAlong_isDirectory? (hr : Sound r w)
    (hgone : w.disk.isDirectory? r.modulePath ≠ .ok true) :
    Call.GoesAlong (Relies w r) T (.isDirectory? r.modulePath) u := by
  intro v h
  refine ⟨?_, h, .refl _ v⟩
  cases h with
  | there hthere => exact absurd hthere hgone
  | gone _ S hS hu hv => exact (hr.isDirectory_eq hv hS).trans (hr.isDirectory_eq hu hS).symm

end Relies

private theorem isThere_eq_false {u' : World} {isThere : Bool}
    (hgone : u.disk.isDirectory? r.modulePath ≠ .ok true)
    (hrun : (Work.isDirectory? r.modulePath).runIn u = (.ok isThere, u')) : isThere = false := by
  rw [runIn_isDirectory?] at hrun
  have hanswer := mapError_eq_ok.mp (Prod.mk.inj hrun).1
  cases isThere with
  | false => rfl
  | true => exact absurd hanswer hgone

/-- Without a directory, the generation does not come to the type files. -/
private theorem generate_goesAlong (hr : Sound r w)
    (hgone : w.disk.isDirectory? r.modulePath ≠ .ok true) :
    (generate r).GoesAlong (Relies w r) T w := by
  refine .bind (.log (Relies.goesAlong_log hgone _)) ?_
  intro _ u hrun
  have hlogged : World.Confined (fun _ => False) w u := by
    rw [runIn_log] at hrun
    rw [← (Prod.mk.inj hrun).2]
    exact .of_logged (.log w _)
  have hu : u.disk.isDirectory? r.modulePath ≠ .ok true := by
    rw [hr.isDirectory_eq hlogged .empty]
    exact hgone
  have hcollect : (collect r).GoesAlong (Relies w r) T u := by
    refine .bind (.granted (.step (Relies.goesAlong_isDirectory? hr hgone))) ?_
    intro isThere u' hasked
    obtain rfl := isThere_eq_false hu hasked
    exact .throw _
  refine .bind hcollect ?_
  intro collected u' hrun
  -- nothing has been collected, so nothing follows
  obtain ⟨isThere, u₁, hasked, hrest⟩ := runIn_bind_ok hrun
  obtain rfl := isThere_eq_false hu hasked
  simp at hrest

/-- **The generation of a module** goes along with its run on its own. -/
theorem generateModule_goesAlong (hr : Sound r w) :
    (generateModule r).GoesAlong (Relies w r) (w.disk.spelled r.modulePath <:+ ·) w := by
  by_cases hthere : w.disk.isDirectory? r.modulePath = .ok true
  · -- all steps stay in the directory
    rw [Relies.eq_alike hthere]
    exact .of_stays (generateModule_stays hr.valid (hr.has hthere))
  · -- the directory is asked for, and there are records
    refine .bind (generate_goesAlong hr hthere).outcome ?_
    intro result u hrun
    cases result with
    | ok files => exact .pure _
    | error failure =>
      show Work.GoesAlong _ _ (if _ then _ else _) u
      split
      · exact .bind (.log (Relies.goesAlong_log hthere _)) fun _ u' _ => .pure _
      · exact .throw failure

end One

/-! ## Batches -/

section Batches

variable {requests : List Request} {w v : World} {outcomes : List Outcome}

/-- **Modules whose directories lie apart are independent.** -/
theorem Separate.independent (h : Separate requests w) :
    Independent generateModule (Relies w) (fun r q => w.disk.spelled r.modulePath <:+ q)
      requests w where
  start r hr := .start (h.sound r hr)
  goes r hr := generateModule_goesAlong (h.sound r hr)
  apart := h.apart.imp fun hapart =>
    ⟨fun _ _ _ hrelies hv => hrelies.elsewhere hv (.of_apart hapart),
      fun _ _ _ hrelies hv => hrelies.elsewhere hv (.of_apart hapart.symm)⟩
  own r hr _ _ hrelies _ hq := hrelies.look_eq (h.sound r hr) hq

private theorem firstFailure_ok {α : Type} (as : List α) :
    firstFailure (as.map .ok) = .ok as := by
  rw [firstFailure_map]
  exact List.mapM_pure.trans (congrArg Except.ok (List.map_id as))

/-- In turn, the modules come to what they come to on their own. -/
theorem Separate.exists_inTurn (h : Separate requests w)
    (hsucceed : Succeed generateModule requests w outcomes) :
    ∃ v, (generateInTurn requests).runIn w = (.ok outcomes, v) := by
  have hvalue : (requests.mapM fun r => ((generateModule r).runIn w).1) = .ok outcomes := by
    rw [← firstFailure_map, hsucceed, firstFailure_ok]
  obtain ⟨v, hrun, -⟩ := (mapM_standsAlone
    (fun r hr => generateModule_standsAlone (h.sound r hr)) h.apart (.refl (fun _ => False) w)
    fun r _ => .empty).exists_runIn
  exact ⟨v, hvalue ▸ hrun⟩

/-- **The number of jobs makes no difference** to modules that succeed in turn. -/
theorem generateAll_of_inTurn (hrun : (generateInTurn requests).runIn w = (.ok outcomes, v))
    (jobs : Int) : (generateAll requests jobs).runIn w =
      (.ok ⟨outcomes, requests.any (·.isDryRun)⟩, v) := by
  rw [generateAll]
  split
  · rw [runIn_bind_of_ok hrun]
    rfl
  · have htogether : (generateTogether requests).runIn w = (.ok outcomes, v) := by
      rw [generateTogether, runIn_bind_of_ok (mapM_outcome_runIn hrun), runIn_ofExcept,
        firstFailure_ok]
      rfl
    rw [runIn_bind_of_ok htogether]
    rfl

/-- **The order of the steps makes no difference.** A batch of modules that are
recorded on their own comes to the same outcomes, in the order of the requests,
and to the same disk, but for the log file, whether they are generated in turn
or in a pool, and whatever the order of the steps and of the outcomes there. A
pool does not go on for ever, and does not stop before all modules are done. -/
theorem generateAll_anyOrder (h : Separate requests w)
    (hrecorded : ∀ r ∈ requests, ∃ o, ((generateModule r).runIn w).1 = .ok o) :
    ∃ outcomes v, (generateInTurn requests).runIn w = (.ok outcomes, v) ∧
      (∀ jobs, (generateAll requests jobs).runIn w =
        (.ok ⟨outcomes, requests.any (·.isDryRun)⟩, v)) ∧
      ∀ p, Pool.Reaches (Pool.start (requests.map generateModule) w) p →
        Acc (fun p₂ p₁ => Pool.Step p₁ p₂) p ∧
          (p.IsFinished ∨ ∃ p', Pool.Step p p') ∧
          (p.IsFinished → p.results? = some outcomes ∧ p.world.disk.here = v.disk.here ∧
            ∀ q, w.logPlace? ≠ some q → p.world.disk.look q = v.disk.look q) := by
  obtain ⟨outcomes, hsucceed⟩ := Succeed.exists_of_forall hrecorded
  obtain ⟨v, hrun⟩ := h.exists_inTurn hsucceed
  refine ⟨outcomes, v, hrun, generateAll_of_inTurn hrun, fun p hreaches => ?_⟩
  have hindependent := h.independent
  have hp := hindependent.onCourse hreaches
  have hhonest := (Pool.isHonest_start _ w).reaches hreaches
  -- to generate the modules in turn is one of the orders
  obtain ⟨turn, hturn, hturnDone, rfl⟩ := Pool.exists_inTurn hrun
  have hturnCourse := hindependent.onCourse hturn
  refine ⟨Pool.wellFounded_step.apply p, ?_, fun hfinished => ⟨?_, ?_, fun q hq => ?_⟩⟩
  · by_cases hfinished : p.IsFinished
    · exact .inl hfinished
    · exact .inr (hp.exists_step hsucceed hfinished)
  · exact hp.results_eq hsucceed hhonest hfinished
  · rw [hp.confined.kept.here, hturnCourse.confined.kept.here]
  · exact hturnCourse.look_eq hp hindependent hturnDone (hhonest.isDone hfinished) q hq

end Batches

/-- The first of the two modules has a type file without a declaration. In whatever
order their steps are taken, it fails and the other one is written. -/
theorem anyOrder_pair :
    ∃ outcomes v, (generateInTurn [todoRequest, notesRequest]).runIn (pairWorld []) =
        (.ok outcomes, v) ∧
      outcomes.map (fun o => (o.isOk, o.files.length)) = [(false, 0), (true, 4)] ∧
      ∀ p, Pool.Reaches (Pool.start ([todoRequest, notesRequest].map generateModule)
        (pairWorld [])) p → p.IsFinished →
          p.results? = some outcomes ∧ ∀ q, p.world.disk.look q = v.disk.look q := by
  have hplain : IsPlain (pairWorld []).disk := isPlain_of_entries (by decide +kernel)
    (by decide +kernel) (by decide +kernel) (by decide +kernel)
  have hrecorded : ∀ r ∈ [todoRequest, notesRequest],
      ∃ o, ((generateModule r).runIn (pairWorld [])).1 = .ok o := by
    intro r hr
    have hall : ∀ r ∈ [todoRequest, notesRequest],
        ((generateModule r).runIn (pairWorld [])).1.isOk = true := by decide +kernel
    have hmember := hall r hr
    cases hrun : ((generateModule r).runIn (pairWorld [])).1 with
    | ok o => exact ⟨o, rfl⟩
    | error failure =>
      rw [hrun] at hmember
      exact absurd hmember (by simp [Except.isOk, Except.toBool])
  obtain ⟨outcomes, v, hrun, -, hpool⟩ :=
    generateAll_anyOrder (separate_pairWorld hplain) hrecorded
  have hvalue : ((generateInTurn [todoRequest, notesRequest]).runIn (pairWorld [])).1.toOption.map
      (·.map fun o => (o.isOk, o.files.length)) = some [(false, 0), (true, 4)] := by
    decide +kernel
  rw [hrun] at hvalue
  refine ⟨outcomes, v, hrun, Option.some.inj hvalue, fun p hreaches hfinished => ?_⟩
  obtain ⟨hresults, -, hlook⟩ := (hpool p hreaches).2.2 hfinished
  exact ⟨hresults, fun q => hlook q (by simp [pairWorld, World.ofDisk])⟩

end Stencil.Module
