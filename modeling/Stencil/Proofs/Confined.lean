import Stencil.Proofs.Disk.Local
import Stencil.Proofs.Log

/-!
# Stencil — scripts that stay below a directory

A script stays below a site if every step it takes there is told by what lies at
the site and below it: in every world with the same there, the step is answered
alike, changes the site alike, and changes nothing else but the log file. Such a
script runs alike in all these worlds, and whatever it does, it leaves the rest
of the disk as it is.

Main results:

* `Call.isLocal_makeDirectory` and its like — the steps that stay below a site;
* `Script.Stays.run_alike` — a script that stays below a site runs alike;
* `Work.StaysIn.bind` and its like — combined work that stays below a site.
-/

namespace Stencil

open Stencil.Disk

/-! ## Changes of a world -/

namespace World

/-- Something may have changed at the places of `S`, and in the log file;
directories and links are kept. -/
structure Confined (S : Place → Prop) (w w' : World) : Prop where
  kept : Kept w.disk w'.disk
  logPlace : w'.logPlace? = w.logPlace?
  same : ∀ q, ¬ S q → SameAt w.disk w'.disk q
  unlogged : ∀ q, ¬ S q → w.logPlace? ≠ some q → w'.disk.look q = w.disk.look q

namespace Confined

variable {S T : Place → Prop} {w w' w'' : World}

theorem refl (S : Place → Prop) (w : World) : Confined S w w :=
  ⟨.refl _, rfl, fun _ _ => .inl rfl, fun _ _ _ => rfl⟩

theorem trans (h : Confined S w w') (h' : Confined S w' w'') : Confined S w w'' := by
  refine ⟨h.kept.trans h'.kept, h'.logPlace.trans h.logPlace, fun q hq => ?_, fun q hq hlog => ?_⟩
  · -- a file stays a file, and everything else stays what it is
    rcases h.same q hq with heq | ⟨hfile, hfile'⟩
    · rcases h'.same q hq with heq' | ⟨hfile', hfile''⟩
      · exact .inl (heq'.trans heq)
      · exact .inr ⟨heq ▸ hfile', hfile''⟩
    · rcases h'.same q hq with heq' | ⟨-, hfile''⟩
      · exact .inr ⟨hfile, heq' ▸ hfile'⟩
      · exact .inr ⟨hfile, hfile''⟩
  · rw [h'.unlogged q hq (by rwa [h.logPlace]), h.unlogged q hq hlog]

theorem mono (h : Confined S w w') (hST : ∀ q, S q → T q) : Confined T w w' :=
  ⟨h.kept, h.logPlace, fun q hq => h.same q (mt (hST q) hq),
    fun q hq => h.unlogged q (mt (hST q) hq)⟩

theorem of_logged (h : Logged w w') : Confined S w w' :=
  ⟨h.grown.kept, h.logPlace, fun q _ => h.sameShape.look q,
    fun q _ hlog => h.other q fun hq => hlog hq.1⟩

theorem of_changedBelow {top : Place} {d : Disk} (h : ChangedBelow top w.disk d) :
    Confined (top <:+ ·) w { w with disk := d } :=
  ⟨h.kept, rfl, fun q hq => .inl (h.other q hq), fun q hq _ => h.other q hq⟩

end Confined

/-- There is a site, and the log file is not at it or below it. -/
structure Has (w : World) (base : Path) (top : Place) : Prop where
  site : Site w.disk base top
  unlogged : ∀ q, top <:+ q → w.logPlace? ≠ some q

theorem Has.confined {S : Place → Prop} {w w' : World} {base : Path} {top : Place}
    (h : w.Has base top) (hconfined : Confined S w w') : w'.Has base top :=
  ⟨h.site.kept hconfined.kept, fun q hq => by rw [hconfined.logPlace]; exact h.unlogged q hq⟩

/-- Two worlds with a site in common, and the same at it and below it. -/
structure Alike (base : Path) (top : Place) (w v : World) : Prop where
  left : w.Has base top
  right : v.Has base top
  same : SameBelow top w.disk v.disk

namespace Alike

variable {S : Place → Prop} {base : Path} {top : Place} {w v v' : World}

theorem refl (h : w.Has base top) : Alike base top w w :=
  ⟨h, h, rfl, fun _ _ => rfl⟩

theorem symm (h : Alike base top w v) : Alike base top v w :=
  ⟨h.right, h.left, h.same.symm⟩

/-- **What changes elsewhere** cannot be told from the site. -/
theorem confined (h : Alike base top w v) (hconfined : Confined S v v')
    (hapart : ∀ q, top <:+ q → ¬ S q) : Alike base top w v' := by
  refine ⟨h.left, h.right.confined hconfined, hconfined.kept.here.trans h.same.here, fun q hq => ?_⟩
  rw [hconfined.unlogged q (hapart q hq) (h.right.unlogged q hq), h.same.look q hq]

end Alike

end World

/-! ## Steps -/

/-- What two worlds come to by a step that is answered alike in both: the site has
changed alike, and nothing else has. -/
structure World.SameStep {α : Type} (top : Place) (v : World) (x y : α × World) : Prop where
  answer : y.1 = x.1
  confined : Confined (top <:+ ·) v y.2
  same : SameBelow top x.2.disk y.2.disk

/-- A step that stays below a site: all worlds with the same there take it alike. -/
def Call.IsLocal (base : Path) (top : Place) (call : Call) (w : World) : Prop :=
  ∀ v, World.Alike base top w v → World.SameStep top v (w.perform call) (v.perform call)

/-- After such a step the worlds are still alike. -/
theorem Call.IsLocal.alike {base : Path} {top : Place} {call : Call} {w v : World}
    (h : call.IsLocal base top w) (hv : World.Alike base top w v) :
    World.Alike base top (w.perform call).2 (v.perform call).2 := by
  have hself := h w (.refl hv.left)
  have hstep := h v hv
  exact ⟨hv.left.confined hself.confined, hv.right.confined hstep.confined, hstep.same⟩

namespace World.SameStep

variable {base path : Path} {top : Place} {names : List String} {w v : World}

/-- A change of the disk, if it is not refused. -/
theorem change (hv : Alike base top w v) {a b : Except Fault Disk}
    (h : SameEdit top w.disk v.disk a b) : SameStep top v (w.change a) (v.change b) := by
  cases h with
  | refused fault => exact ⟨rfl, .refl _ v, hv.same⟩
  | changed hd hd' hsame => exact ⟨rfl, .of_changedBelow hd', hsame⟩

/-- The log file does not lie where a path below the site leads. -/
private theorem forget_eq (hw : w.Has base top) (h : Down base top names path) :
    w.forget path = w := by
  rw [forget]
  split
  · rename_i place hplace
    exact if_neg (hw.unlogged place (h.suffix hw.site (by simp) hplace))
  · rfl

/-- A change that does away with what a path leads to. -/
theorem replace (hv : Alike base top w v) (hpath : Down base top names path)
    {a b : Except Fault Disk} (h : SameEdit top w.disk v.disk a b) :
    SameStep top v (w.replace path a) (v.replace path b) := by
  cases h with
  | refused fault => exact ⟨rfl, .refl _ v, hv.same⟩
  | changed hd hd' hsame =>
    refine ⟨rfl, ?_, ?_⟩
    · simp only [World.replace, forget_eq hv.right hpath]
      exact .of_changedBelow hd'
    · exact hsame

end World.SameStep

namespace Call

variable {base p target : Path} {top : Place} {names names' : List String} {w : World}

/-! ### What is asked -/

section Questions

variable (h : Down base top names p)
include h

theorem isLocal_exists? : (Call.exists? p).IsLocal base top w := fun v hv =>
  ⟨h.exists_eq hv.left.site hv.right.site hv.same, .refl _ v, hv.same⟩

theorem isLocal_isFile? : (Call.isFile? p).IsLocal base top w := fun v hv =>
  ⟨h.isFile_eq hv.left.site hv.right.site hv.same, .refl _ v, hv.same⟩

theorem isLocal_isDirectory? : (Call.isDirectory? p).IsLocal base top w := fun v hv =>
  ⟨h.isDirectory_eq hv.left.site hv.right.site hv.same, .refl _ v, hv.same⟩

theorem isLocal_read : (Call.read p).IsLocal base top w := fun v hv =>
  ⟨h.read_eq hv.left.site hv.right.site hv.same, .refl _ v, hv.same⟩

theorem isLocal_mode : (Call.mode p).IsLocal base top w := fun v hv =>
  ⟨h.modeAt_eq hv.left.site hv.right.site hv.same, .refl _ v, hv.same⟩

/-! ### What is changed -/

theorem isLocal_makeDirectory : (Call.makeDirectory p).IsLocal base top w := fun _ hv =>
  .change hv (h.makeDirectory_sameEdit hv.left.site hv.right.site hv.same)

theorem isLocal_fill (bytes : List UInt8) : (Call.fill p bytes).IsLocal base top w := fun _ hv =>
  .change hv (h.fill_sameEdit hv.left.site hv.right.site hv.same bytes)

theorem isLocal_remove : (Call.remove p).IsLocal base top w := fun _ hv =>
  .replace hv h (h.remove_sameEdit hv.left.site hv.right.site hv.same)

variable {place : Place} {bytes : List UInt8} {mode : Nat}
  (hp : w.disk.locate .atLink p = .ok place) (hfile : w.disk.look place = some (.file bytes mode))
include hp hfile

/-- The permissions of a file that is there. -/
theorem isLocal_setMode (mode' : Nat) : (Call.setMode p mode').IsLocal base top w := fun _ hv =>
  .change hv (h.setMode_sameEdit hv.left.site hv.right.site hv.same hp hfile mode')

/-- A file that is there is moved. -/
theorem isLocal_rename (htarget : Down base top names' target) :
    (Call.rename p target).IsLocal base top w := fun _ hv =>
  .replace hv htarget (h.rename_sameEdit hv.left.site hv.right.site hv.same htarget hp hfile)

end Questions

/-- A temporary file beside a file below the site. -/
theorem isLocal_makeTemporary (hplain : ∀ x ∈ names, IsName x) (last : String) :
    (Call.makeTemporary (pathBelow base (names ++ [last]))).IsLocal base top w := by
  intro v hv
  rcases hv.left.site.makeTemporary_cases hv.right.site hv.same hplain last with
    ⟨fault, hrefused, hrefused'⟩ | ⟨t, e, e', hmade, hmade', -, hchanged', hsame⟩
  · rw [World.perform, World.perform, hrefused, hrefused']
    exact ⟨rfl, .refl _ v, hv.same⟩
  · rw [World.perform, World.perform, hmade, hmade']
    exact ⟨rfl, .of_changedBelow hchanged', hsame⟩

/-- A log record. -/
theorem isLocal_log (record : Log.Record) : (Call.log record).IsLocal base top w := by
  intro v hv
  have hw : World.Confined (fun _ => False) w (w.log record) := .of_logged (.log w record)
  have hv' : World.Confined (fun _ => False) v (v.log record) := .of_logged (.log v record)
  refine ⟨rfl, .of_logged (.log v record), ?_⟩
  -- the log file is elsewhere in both worlds
  exact ((hv.confined hv' fun _ _ => id).symm.confined hw fun _ _ => id).symm.same

end Call

/-! ## Scripts -/

/-- Every step of a script that is carried out in a world stays below a site. -/
def Script.Stays {α : Type} (base : Path) (top : Place) : Script α → World → Prop
  | .done _, _ => True
  | .ask call next, w =>
    call.IsLocal base top w ∧ (next (w.perform call).1).Stays base top (w.perform call).2

namespace Script.Stays

variable {α β : Type} {base : Path} {top : Place} {s : Script α} {w v : World}

/-- **A script that stays below a site** runs alike in all worlds with the same
there, and changes nothing else. -/
theorem run_alike (h : s.Stays base top w) (hv : World.Alike base top w v) :
    (s.run v).1 = (s.run w).1 ∧ World.Alike base top (s.run w).2 (s.run v).2 ∧
      World.Confined (top <:+ ·) v (s.run v).2 := by
  -- on the script; that the worlds are alike is what every step keeps
  induction s generalizing w v with
  | done a => exact ⟨rfl, hv, .refl _ v⟩
  | ask call next ih =>
    obtain ⟨hlocal, hnext⟩ := h
    -- after the step both worlds are still alike, and the rest is the same script
    have hstep := hlocal v hv
    obtain ⟨hvalue, hend, hconfined⟩ := ih _ hnext (hlocal.alike hv)
    rw [Script.run, Script.run, hstep.answer]
    exact ⟨hvalue, hend, hstep.confined.trans hconfined⟩

theorem confined (h : s.Stays base top w) (hw : w.Has base top) :
    World.Confined (top <:+ ·) w (s.run w).2 :=
  (h.run_alike (.refl hw)).2.2

theorem bind {f : α → Script β} (h : s.Stays base top w)
    (hnext : (f (s.run w).1).Stays base top (s.run w).2) : (s.bind f).Stays base top w := by
  -- on the first script; the second one starts where it ends
  induction s generalizing w with
  | done a => exact hnext
  | ask call next ih => exact ⟨h.1, ih _ h.2 hnext⟩

end Script.Stays

/-! ## Work -/

namespace Work

/-- Work that stays below a site when it is carried out in a world. -/
def StaysIn {α : Type} (base : Path) (top : Place) (work : Work α) (w : World) : Prop :=
  Script.Stays base top (ExceptT.run work) w

/-- Work that stays below a site wherever there is one. -/
def Local {α : Type} (base : Path) (top : Place) (work : Work α) : Prop :=
  ∀ w, w.Has base top → work.StaysIn base top w

section Combined

variable {α β : Type} {base : Path} {top : Place} {w w' : World}

theorem StaysIn.confined {work : Work α} (h : work.StaysIn base top w) (hw : w.Has base top) :
    World.Confined (top <:+ ·) w (work.runIn w).2 :=
  Script.Stays.confined h hw

/-- After work that stays below a site the site is still there. -/
theorem StaysIn.has {work : Work α} (h : work.StaysIn base top w) (hw : w.Has base top)
    {result : Except Failure α} (hrun : work.runIn w = (result, w')) : w'.Has base top := by
  have hconfined := h.confined hw
  rw [hrun] at hconfined
  exact hw.confined hconfined

theorem StaysIn.pure (a : α) : (Pure.pure a : Work α).StaysIn base top w :=
  trivial

theorem StaysIn.throw (failure : Failure) :
    (MonadExcept.throw failure : Work α).StaysIn base top w :=
  trivial

theorem StaysIn.bind {work : Work α} {next : α → Work β} (h : work.StaysIn base top w)
    (hnext : ∀ a w', work.runIn w = (.ok a, w') → (next a).StaysIn base top w') :
    (work >>= next).StaysIn base top w := by
  show Script.Stays base top (Script.bind (ExceptT.run work) (ExceptT.bindCont next)) w
  refine Script.Stays.bind h ?_
  rcases hrun : work.runIn w with ⟨_ | a, w'⟩
  · rw [show Script.run (ExceptT.run work) w = _ from hrun]
    trivial
  · rw [show Script.run (ExceptT.run work) w = _ from hrun]
    exact hnext a w' hrun

theorem StaysIn.outcome {work : Work α} (h : work.StaysIn base top w) :
    (Work.outcome work).StaysIn base top w := by
  show Script.Stays base top (Script.bind (ExceptT.run work) fun a => Script.done (Except.ok a)) w
  exact Script.Stays.bind h trivial

theorem StaysIn.ofExcept {ε : Type} (toFailure : ε → Failure) (result : Except ε α) :
    (Work.ofExcept toFailure result).StaysIn base top w := by
  cases result <;> exact trivial

theorem StaysIn.granted {s : Script (Except Fault α)} (h : s.Stays base top w) :
    (Work.granted s).StaysIn base top w := by
  show Script.Stays base top (Script.bind s _) w
  refine Script.Stays.bind h ?_
  cases (s.run w).1 <;> exact trivial

/-- A single step that stays below the site. -/
theorem stays_step {call : Call} (h : call.IsLocal base top w) :
    (Script.step call).Stays base top w :=
  ⟨h, trivial⟩

theorem Local.pure (a : α) : Local base top (Pure.pure a : Work α) := fun _ _ =>
  .pure a

theorem Local.throw (failure : Failure) : Local base top (MonadExcept.throw failure : Work α) :=
  fun _ _ => .throw failure

theorem Local.bind {work : Work α} {next : α → Work β} (h : Local base top work)
    (hnext : ∀ a, Local base top (next a)) : Local base top (work >>= next) := fun w hw =>
  .bind (h w hw) fun a w' hrun => hnext a w' ((h w hw).has hw hrun)

theorem Local.outcome {work : Work α} (h : Local base top work) :
    Local base top (Work.outcome work) := fun w hw =>
  .outcome (h w hw)

theorem Local.ofExcept {ε : Type} (toFailure : ε → Failure) (result : Except ε α) :
    Local base top (Work.ofExcept toFailure result) := fun _ _ =>
  .ofExcept toFailure result

theorem Local.mapM {f : α → Work β} {as : List α} (h : ∀ a ∈ as, Local base top (f a)) :
    Local base top (as.mapM f) := by
  induction as with
  | nil => exact .pure []
  | cons a as ih =>
    rw [List.mapM_cons]
    exact .bind (h a (by simp)) fun b =>
      .bind (ih fun a' ha' => h a' (by simp [ha'])) fun bs => .pure (b :: bs)

theorem Local.log (severity : Log.Severity) (topic : Log.Topic) (message : String) :
    Local base top (Work.log severity topic message) := fun _ _ =>
  Script.Stays.bind (stays_step (Call.isLocal_log _)) trivial

end Combined

/-! ### Requests about a path below the site -/

section Requests

variable {base p : Path} {top : Place} {names : List String} (h : Down base top names p)
include h

theorem Local.exists? : Local base top (Work.exists? p) := fun _ _ =>
  .granted (stays_step (Call.isLocal_exists? h))

theorem Local.isFile? : Local base top (Work.isFile? p) := fun _ _ =>
  .granted (stays_step (Call.isLocal_isFile? h))

theorem Local.isDirectory? : Local base top (Work.isDirectory? p) := fun _ _ =>
  .granted (stays_step (Call.isLocal_isDirectory? h))

theorem Local.read : Local base top (Work.read p) := fun _ _ =>
  .granted (stays_step (Call.isLocal_read h))

theorem Local.mode : Local base top (Work.mode p) := fun _ _ =>
  .granted (stays_step (Call.isLocal_mode h))

theorem Local.makeDirectory : Local base top (Work.makeDirectory p) := fun _ _ =>
  .granted (stays_step (Call.isLocal_makeDirectory h))

end Requests

end Work

end Stencil
