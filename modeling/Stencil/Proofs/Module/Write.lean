import Stencil.Module.Write
import Stencil.Proofs.Disk.Parent
import Stencil.Proofs.Disk.Path
import Stencil.Proofs.Disk.Replace
import Stencil.Proofs.Log

/-!
# Stencil — what writing a file does

`composeOn` is what a disk makes of the text that is to be written, without any
steps. Writing the result is one file replaced, on a disk that may have more
directories than before; in a directory that is there already, and with room
for a temporary file, it does not fail.

Main results:

* `compose_runIn` — `compose` reads the disk and does nothing to it;
* `atomicWrite_ready` — when a write succeeds.
-/

namespace Stencil.Module

open Stencil.Disk

/-! ## Composing -/

/-- What a file is to hold, by the disk alone. -/
def composeOn (d : Disk) (path : Path) (new : String) (isAppend : Bool) :
    Except Failure Composed :=
  match d.exists? path with
  | .error fault => .error (.disk fault)
  | .ok false => .ok ⟨new, .created⟩
  | .ok true =>
    match d.read path with
    | .error fault => .error (.disk fault)
    | .ok bytes => if isAppend then mergeInto path bytes new else .ok (replaceIn bytes new)

/-- What is made of a file that can be read. -/
theorem composeOn_of_read {d : Disk} {path : Path} {bytes : List UInt8}
    (h : d.read path = .ok bytes) (new : String) (isAppend : Bool) :
    composeOn d path new isAppend =
      if isAppend then mergeInto path bytes new else .ok (replaceIn bytes new) := by
  obtain ⟨hnul, mode, hentry⟩ := read_eq_ok_iff.mp h
  rw [composeOn, exists_of_entryAt hnul hentry]
  simp only [h]

/-- **Composing** depends on the disk only and changes nothing. -/
theorem compose_runIn (path : Path) (new : String) (isAppend : Bool) (w : World) :
    (compose path new isAppend).runIn w = (composeOn w.disk path new isAppend, w) := by
  rw [compose, composeOn, Work.runIn_bind, Work.runIn_exists?]
  -- one case for each answer of the disk; `compose` and `composeOn` branch alike
  cases w.disk.exists? path with
  | error fault => rfl
  | ok isThere =>
    cases isThere with
    | false => rfl
    | true =>
      simp only [Work.answered_ok, if_true]
      rw [Work.runIn_bind, Work.runIn_read]
      cases w.disk.read path with
      | error fault => rfl
      | ok bytes =>
        simp only [Work.answered_ok]
        cases isAppend with
        | false => rfl
        | true =>
          simp only [if_true, Work.runIn_ofExcept]
          cases mergeInto path bytes new <;> rfl

/-! ## Directories -/

/-- There may be new directories; nothing else has changed. -/
structure Widened (w w' : World) : Prop where
  disk : Grown (fun _ => False) w.disk w'.disk
  world : w' = { w with disk := w'.disk }

namespace Widened

theorem refl (w : World) : Widened w w :=
  ⟨.refl _ _, rfl⟩

theorem trans (w₁ w₂ w₃ : World) (h : Widened w₁ w₂) (h' : Widened w₂ w₃) : Widened w₁ w₃ := by
  refine ⟨h.disk.trans h'.disk, ?_⟩
  rw [h'.world, h.world]

end Widened

theorem makeDirectory_widens (path : Path) : Work.Keeps Widened (Work.makeDirectory path) := by
  intro w
  rw [Work.runIn_makeDirectory]
  cases hmade : w.disk.makeDirectory path with
  | error fault => exact .refl w
  | ok d => exact ⟨grown_makeDirectory hmade, rfl⟩

theorem ensureDirectory_widens (path : Path) : Work.Keeps Widened (ensureDirectory path) := by
  refine Work.Keeps.bind Widened.trans (makeDirectory_widens path).outcome fun result => ?_
  cases result with
  | ok _ => exact .pure Widened.refl ()
  | error failure =>
    -- a refusal is looked into, and the look changes nothing
    show Work.Keeps Widened (if _ then _ else _)
    split
    · refine Work.Keeps.bind Widened.trans (.granted Widened.refl) fun isThere => ?_
      split
      · exact .pure Widened.refl ()
      · exact .throw Widened.refl failure
    · exact .throw Widened.refl failure

/-- **Making directories** makes directories only, also if it fails. -/
theorem ensureDirectories_widens (path : Path) : Work.Keeps Widened (ensureDirectories path) := by
  rw [ensureDirectories]
  -- on the names, the last one first: a directory is made after the ones around it
  induction path.parts.reverse with
  | nil => exact ensureDirectory_widens _
  | cons name outer ih =>
    refine Work.Keeps.bind Widened.trans (ensureDirectory_widens _).outcome fun result => ?_
    cases result with
    | ok _ => exact .pure Widened.refl ()
    | error failure =>
      show Work.Keeps Widened (if _ then _ else _)
      split
      · exact Work.Keeps.bind Widened.trans ih fun _ => ensureDirectory_widens _
      · exact .throw Widened.refl failure

/-- There is nothing to do for a directory that is there. -/
theorem ensureDirectory_runIn {path : Path} {w : World} {m : Nat} (hnul : path.hasNul = false)
    (h : w.disk.entryAt path = .ok (.directory m)) :
    (ensureDirectory path).runIn w = (.ok (), w) := by
  -- the request is refused, because something lies where the path leads
  have hthere : w.disk.makeDirectory path = .error (.refused .alreadyThere path.text) := by
    obtain ⟨r, hr, hlook⟩ := entryAt_eq_ok_iff.mp h
    obtain ⟨hlimit, hwalk⟩ := locate_eq_ok_iff.mp hr
    obtain ⟨p, hp, hleads⟩ := hwalk.exists_atLink
    rw [Disk.makeDirectory, hnul, locate_eq_ok_iff.mpr ⟨hlimit, hp⟩]
    rcases hleads with rfl | ⟨target, links, hlink, -⟩
    · simp [hlook]
    · simp [hlink]
  have hdirectory : w.disk.isDirectory? path = .ok true := by
    rw [Disk.isDirectory?, probe, hnul, h]
    rfl
  rw [ensureDirectory, Work.runIn_bind, Work.runIn_outcome, Work.runIn_makeDirectory, hthere]
  simp only [World.change, Work.answered_error]
  -- and the refusal is forgiven, because it is a directory
  rw [if_pos (by simp [Failure.isDiskRefusal, Fault.isRefusal]), Work.runIn_bind,
    Work.runIn_isDirectory?, hdirectory]
  rfl

theorem ensureDirectories_runIn {path : Path} {w : World} {m : Nat} (hnul : path.hasNul = false)
    (h : w.disk.entryAt path = .ok (.directory m)) :
    (ensureDirectories path).runIn w = (.ok (), w) := by
  have hone := ensureDirectory_runIn hnul h
  rw [ensureDirectories]
  generalize hnames : path.parts.reverse = names
  -- the whole path comes first, and it is enough
  cases names with
  | nil =>
    rw [List.reverse_eq_nil_iff] at hnames
    rw [ensureNames, ← hnames]
    exact hone
  | cons name outer =>
    have hpath : (⟨path.anchor, (name :: outer).reverse⟩ : Path) = path := by
      rw [← hnames, List.reverse_reverse]
    rw [ensureNames, hpath, Work.runIn_bind, Work.runIn_outcome, hone]
    rfl

/-! ## One write -/

/-- What a write has done: the file is there, and the log file is no longer
open if it was in its place. -/
structure Written (p : Place) (bytes : List UInt8) (w w' : World) : Prop where
  disk : ∃ mode, Replaced p bytes mode w.disk w'.disk
  log : w'.logPlace? = if w.logPlace? = some p then none else w.logPlace?

/-- The log file is closed if it was in the place of what is done away with. -/
theorem logPlace_forget {w : World} {path : Path} {p : Place}
    (hp : w.disk.locate .atLink path = .ok p) :
    (w.forget path).logPlace? = if w.logPlace? = some p then none else w.logPlace? := by
  simp only [World.forget, hp]
  split <;> rfl

section FillAndMove

variable {temporary path : Path} {content : List UInt8} {w : World} {t : Place}

/-- The temporary file is filled, and gets the permissions that it is to have. -/
theorem fillTemporary_runIn (content : List UInt8) (hnul : temporary.hasNul = false)
    (ht : w.disk.locate .atLink temporary = .ok t) (hnone : w.disk.look t = none) (mode : Nat) :
    ∃ d, Replaced t content mode w.disk d ∧ d.locate .atLink temporary = .ok t ∧
      (Work.fill temporary content >>= fun _ => Work.setMode temporary mode).runIn
          { w with disk := w.disk.put t (.file [] temporaryMode) } =
        (.ok (), { w with disk := d }) := by
  obtain ⟨filled, set, -, hfill, -, hsetMode, hset⟩ := fill_temporary hnul ht hnone content mode
  refine ⟨_, hset, hset.locate_new hnone ht, ?_⟩
  rw [Work.runIn_bind_of_ok (Work.runIn_fill_of_ok hfill), Work.runIn_setMode_of_ok hsetMode]

/-- The move comes last. -/
theorem fillAndMove_eq (temporary path : Path) (content : List UInt8) (mode : Nat) :
    fillAndMove temporary path content mode =
      (Work.fill temporary content >>= fun _ => Work.setMode temporary mode) >>= fun _ =>
        Work.rename temporary path := by
  rw [bind_assoc]
  rfl

/-- Up to the move, only the temporary file changes. -/
private theorem fillAndMove_runIn (path : Path) (content : List UInt8)
    (hnul : temporary.hasNul = false)
    (ht : w.disk.locate .atLink temporary = .ok t) (hnone : w.disk.look t = none) (mode : Nat) :
    ∃ d, Replaced t content mode w.disk d ∧ d.locate .atLink temporary = .ok t ∧
      (fillAndMove temporary path content mode).runIn
          { w with disk := w.disk.put t (.file [] temporaryMode) } =
        (Work.rename temporary path).runIn { w with disk := d } := by
  obtain ⟨d, hset, htd, hrun⟩ := fillTemporary_runIn content hnul ht hnone mode
  exact ⟨d, hset, htd, by rw [fillAndMove_eq, Work.runIn_bind_of_ok hrun]⟩

/-- A move that is granted puts the temporary file in place of the other one. -/
theorem rename_written {d : Disk} {mode : Nat} {p : Place}
    (hd : Replaced t content mode w.disk d) (hnone : w.disk.look t = none)
    (ht : d.locate .atLink temporary = .ok t) (hp : d.locate .atLink path = .ok p)
    (hpnil : p ≠ []) {d' : Disk} (h : d.rename temporary path = .ok d') :
    ∃ w', (Work.rename temporary path).runIn { w with disk := d } = (.ok (), w') ∧
      Written p content w w' := by
  exact ⟨_, Work.runIn_rename_of_ok h, ⟨mode, rename_replaced hd hnone ht hp hpnil h⟩,
    logPlace_forget (w := { w with disk := d }) hp⟩

end FillAndMove

/-- Removing a temporary file that is there. -/
theorem remove_runIn {w : World} {temporary : Path} {t : Place} {bytes : List UInt8}
    {mode : Nat} (hnul : temporary.hasNul = false)
    (ht : w.disk.locate .atLink temporary = .ok t)
    (hfile : w.disk.look t = some (.file bytes mode)) :
    (Work.remove temporary).runIn w =
      (.ok (), { w.forget temporary with disk := w.disk.erase t }) := by
  show Script.run (Script.bind (Script.step (.remove temporary)) _) w = _
  rw [Script.run_bind]
  simp only [Script.step, Script.run, World.perform, remove_eq hnul ht hfile, World.replace]
  rfl

/-- A file that is there keeps its permissions. -/
theorem modeToKeep_runIn {path : Path} {w : World} {e : Entry} (hnul : path.hasNul = false)
    (h : w.disk.entryAt path = .ok e) : (modeToKeep path).runIn w = (.ok e.mode, w) := by
  have hthere : w.disk.exists? path = .ok true := exists_of_entryAt hnul h
  have hmode : w.disk.modeAt path = .ok e.mode := by
    rw [modeAt, hnul, h]
    rfl
  rw [modeToKeep, Work.runIn_bind, Work.runIn_exists?, hthere]
  simp only [Work.answered_ok, if_true]
  show (Work.mode path).runIn w = _
  rw [Work.runIn_mode, hmode]
  rfl

/-- **When a write succeeds**: the path leads somewhere, to no directory, and there
is room for a temporary file. -/
theorem atomicWrite_ready {path : Path} {w : World} {p : Place}
    (hname : EndsInName path) (hends : path.endsInName = true) (hnul : path.hasNul = false)
    (hp : w.disk.locate .atLink path = .ok p)
    (hdirectory : ∀ m, w.disk.look p ≠ some (.directory m))
    {e : Entry} (hentry : w.disk.entryAt path = .ok e)
    (hroom : ∃ made, w.disk.makeTemporary path = .ok made) (content : String) :
    ∃ w', (atomicWrite path content).runIn w = (.ok (), w') ∧
      Written p (bytesOf content) w w' := by
  have hparentNul : path.parent.hasNul = false := Path.hasNul_eq_false_iff.mpr fun part hpart =>
    Path.hasNul_eq_false_iff.mp hnul part (List.dropLast_subset _ hpart)
  obtain ⟨m, hparent⟩ := hname.entryAt_parent hp
  have hmode := modeToKeep_runIn hnul hentry
  obtain ⟨⟨temporary, d₁⟩, hmade⟩ := hroom
  obtain ⟨rfl, htnul, t, ht, hnone, rfl⟩ := makeTemporary_eq_ok_iff.mp hmade
  obtain ⟨d, hd, htd, hrun⟩ := fillAndMove_runIn path (bytesOf content) htnul ht hnone e.mode
  have hne : t ≠ p := hname.temporary_ne ht hp
  -- the path still leads where it led once the temporary file is there
  have hpd : d.locate .atLink path = .ok p := hd.locate_new hnone hp
  have hmoved : d.rename (w.disk.temporaryPath path) path = .ok
      ((d.erase t).put p (.file (bytesOf content) e.mode)) :=
    rename_eq_ok_iff.mpr ⟨htnul, hnul, hends, t, p, _, htd, hpd, hd.self,
      fun m => by rw [hd.other p hne.symm]; exact hdirectory m, rfl⟩
  obtain ⟨w', hw', hwritten⟩ := rename_written hd hnone htd hpd (hname.place_ne_nil hp) hmoved
  refine ⟨w', ?_, hwritten⟩
  rw [atomicWrite, Work.runIn_bind_of_ok (ensureDirectories_runIn hparentNul hparent),
    Work.runIn_bind_of_ok hmode, Work.runIn_bind_of_ok (Work.runIn_makeTemporary_of_ok hmade),
    Work.runIn_bind, Work.runIn_outcome, hrun, hw']
  rfl

/-! ## How a write fails -/

section Failing

variable {P : Failure → Prop} {path : Path}

theorem ensureDirectory_fails (hmake : Work.FailsOnly P (Work.makeDirectory path))
    (hlook : Work.FailsOnly P (Work.isDirectory? path)) :
    Work.FailsOnly P (ensureDirectory path) := by
  refine .bind_outcome hmake (fun _ => .pure ()) fun failure hfailure => ?_
  show Work.FailsOnly P (if _ then _ else _)
  split
  · refine .bind hlook fun isThere => ?_
    split
    · exact .pure ()
    · exact .throw hfailure
  · exact .throw hfailure

/-- Making directories asks for paths with some of the same names. -/
theorem ensureDirectories_fails
    (hone : ∀ p : Path, p.parts ⊆ path.parts → Work.FailsOnly P (ensureDirectory p)) :
    Work.FailsOnly P (ensureDirectories path) := by
  have hall : ∀ names ⊆ path.parts, Work.FailsOnly P (ensureNames path.anchor names) := by
    intro names hnames
    induction names with
    | nil => exact hone _ (by simp)
    | cons name outer ih =>
      have hpath : Work.FailsOnly P (ensureDirectory ⟨path.anchor, (name :: outer).reverse⟩) :=
        hone _ fun x hx => hnames (List.mem_reverse.mp hx)
      refine .bind_outcome hpath (fun _ => .pure ()) fun failure hfailure => ?_
      show Work.FailsOnly P (if _ then _ else _)
      split
      · exact .bind (ih (List.cons_subset.mp hnames).2) fun _ => hpath
      · exact .throw hfailure
  exact hall _ fun x hx => List.mem_reverse.mp hx

theorem modeToKeep_fails (hlook : Work.FailsOnly P (Work.exists? path))
    (hmode : Work.FailsOnly P (Work.mode path)) : Work.FailsOnly P (modeToKeep path) := by
  refine .bind hlook fun isThere => ?_
  split
  · exact hmode
  · exact .pure newFileMode

theorem remove_fails
    (h : ∀ (w : World) fault, w.disk.remove path = .error fault → P (.disk fault)) :
    Work.FailsOnly P (Work.remove path) := by
  intro w failure w' hrun
  change Script.run (Script.bind _ _) w = _ at hrun
  rw [Script.run_bind] at hrun
  simp only [Script.step, Script.run] at hrun
  -- a file that is gone already is no failure
  split at hrun
  · exact absurd (Prod.mk.inj hrun).1 (by simp)
  · exact absurd (Prod.mk.inj hrun).1 (by simp)
  · rename_i fault _ hanswer
    have hfault : w.disk.remove path = .error fault := by
      cases hremove : w.disk.remove path with
      | ok d => simp [World.perform, World.replace, hremove] at hanswer
      | error fault' => simpa [World.perform, World.replace, hremove] using hanswer
    exact Except.error.inj (Prod.mk.inj hrun).1 ▸ h w fault hfault

/-- What follows the temporary file: it is filled and moved, or removed. -/
theorem moveOrRemove_fails {temporary : Path} {content : List UInt8} {mode : Nat}
    (hmove : Work.FailsOnly P (fillAndMove temporary path content mode))
    (hremove : Work.FailsOnly P (Work.remove temporary)) :
    Work.FailsOnly P (do
      match ← Work.outcome (fillAndMove temporary path content mode) with
      | .ok () => return
      | .error failure =>
        Work.remove temporary
        throw failure) :=
  .bind_outcome hmove (fun _ => .pure ()) fun _ hfailure =>
    .bind hremove fun _ => .throw hfailure

end Failing

/-- The disk has refused something. -/
def IsRefused (failure : Failure) : Prop :=
  ∃ fault, failure = .disk fault

private theorem granted_fails {α : Type} (s : Script (Except Fault α)) :
    Work.FailsOnly IsRefused (Work.granted s) :=
  .granted fun _ fault _ => ⟨fault, rfl⟩

/-- **A write fails only if the disk refuses something.** -/
theorem atomicWrite_fails (path : Path) (content : String) :
    Work.FailsOnly IsRefused (atomicWrite path content) := by
  refine .bind (ensureDirectories_fails fun p _ =>
    ensureDirectory_fails (granted_fails _) (granted_fails _)) fun _ => ?_
  refine .bind (modeToKeep_fails (granted_fails _) (granted_fails _)) fun mode => ?_
  refine .bind (granted_fails _) fun temporary => moveOrRemove_fails ?_ ?_
  · exact .bind (granted_fails _) fun _ => .bind (granted_fails _) fun _ => granted_fails _
  · exact remove_fails fun _ fault _ => ⟨fault, rfl⟩

/-! ## Generated files -/

section WriteGenerated

variable {path : Path} {new : String} {isAppend : Bool} {w : World}

/-- A file that cannot be composed is reported, and nothing is written. -/
theorem writeGenerated_of_error {isDryRun : Bool} {failure : Failure}
    (h : composeOn w.disk path new isAppend = .error failure) :
    ∃ w', (writeGenerated path new isAppend isDryRun).runIn w = (.error failure, w') ∧
      World.Logged w w' := by
  rw [writeGenerated, Work.runIn_bind, Work.runIn_outcome, compose_runIn, h]
  -- only a conflict is logged
  cases failure with
  | conflict path' reason => exact ⟨_, rfl, .log w _⟩
  | _ => exact ⟨_, rfl, .refl w⟩

/-- A file that is to hold what it holds is not written. -/
theorem writeGenerated_of_unchanged {composed : Composed}
    (h : composeOn w.disk path new isAppend = .ok composed)
    (haction : composed.action = .unchanged) :
    ∃ w', (writeGenerated path new isAppend false).runIn w = (.ok composed, w') ∧
      World.Logged w w' := by
  rw [writeGenerated, Work.runIn_bind, Work.runIn_outcome, compose_runIn, h]
  simp only [haction]
  exact ⟨_, rfl, .log w _⟩

/-- Every other file is written, and the write decides. -/
theorem writeGenerated_of_changed {composed : Composed}
    (h : composeOn w.disk path new isAppend = .ok composed)
    (haction : composed.action ≠ .unchanged) :
    (writeGenerated path new isAppend false).runIn w =
      (atomicWrite path composed.content >>= fun _ =>
        Work.log .info .writing (composed.action.title ++ " " ++ path.text) >>= fun _ =>
          pure composed).runIn w := by
  rw [writeGenerated, Work.runIn_bind, Work.runIn_outcome, compose_runIn, h]
  simp only [if_neg haction]
  rfl

theorem writeGenerated_of_written {composed : Composed} {w₁ : World}
    (h : composeOn w.disk path new isAppend = .ok composed) (haction : composed.action ≠ .unchanged)
    (hwrite : (atomicWrite path composed.content).runIn w = (.ok (), w₁)) :
    ∃ w', (writeGenerated path new isAppend false).runIn w = (.ok composed, w') ∧
      World.Logged w₁ w' := by
  rw [writeGenerated_of_changed h haction, Work.runIn_bind_of_ok hwrite]
  exact ⟨_, rfl, .log w₁ _⟩

/-- **A file that is not written** could not be composed, or the write has failed. -/
theorem writeGenerated_eq_error {isDryRun : Bool} {failure : Failure} {w' : World}
    (h : (writeGenerated path new isAppend isDryRun).runIn w = (.error failure, w')) :
    composeOn w.disk path new isAppend = .error failure ∧ World.Logged w w' ∨
      ∃ content, (atomicWrite path content).runIn w = (.error failure, w') := by
  cases hcompose : composeOn w.disk path new isAppend with
  | error failure' =>
    obtain ⟨w₁, hrun, hlog⟩ := writeGenerated_of_error hcompose
    obtain ⟨hfailure, rfl⟩ := Prod.mk.inj (hrun.symm.trans h)
    obtain rfl := Except.error.inj hfailure
    exact .inl ⟨rfl, hlog⟩
  | ok composed =>
    refine .inr ?_
    -- a dry run does not write and cannot fail after this
    cases isDryRun with
    | true =>
      rw [writeGenerated, Work.runIn_bind, Work.runIn_outcome, compose_runIn, hcompose] at h
      exact absurd (Prod.mk.inj h).1 (by simp)
    | false =>
      by_cases haction : composed.action = .unchanged
      · obtain ⟨w₁, hrun, -⟩ := writeGenerated_of_unchanged hcompose haction
        rw [hrun] at h
        simp at h
      · rw [writeGenerated_of_changed hcompose haction] at h
        rcases Work.runIn_bind_error h with h | ⟨_, w₁, -, h⟩
        · exact ⟨composed.content, h⟩
        · exact absurd (Prod.mk.inj h).1 (by simp)

/-- A dry run says what would be written. -/
theorem writeGenerated_dry {composed : Composed}
    (h : composeOn w.disk path new isAppend = .ok composed) :
    ∃ w', (writeGenerated path new isAppend true).runIn w = (.ok composed, w') ∧
      World.Logged w w' := by
  rw [writeGenerated, Work.runIn_bind, Work.runIn_outcome, compose_runIn, h]
  exact ⟨_, rfl, .log w _⟩

/-- A file that is written is what it was to be. -/
theorem writeGenerated_eq_ok {isDryRun : Bool} {composed : Composed} {w' : World}
    (h : (writeGenerated path new isAppend isDryRun).runIn w = (.ok composed, w')) :
    composeOn w.disk path new isAppend = .ok composed := by
  cases hcompose : composeOn w.disk path new isAppend with
  | error failure =>
    obtain ⟨w₁, hrun, -⟩ := writeGenerated_of_error hcompose
    rw [hrun] at h
    simp at h
  | ok composed' =>
    cases isDryRun with
    | true =>
      obtain ⟨w₁, hrun, -⟩ := writeGenerated_dry hcompose
      exact (Prod.mk.inj (hrun.symm.trans h)).1
    | false =>
      by_cases haction : composed'.action = .unchanged
      · obtain ⟨w₁, hrun, -⟩ := writeGenerated_of_unchanged hcompose haction
        exact (Prod.mk.inj (hrun.symm.trans h)).1
      · -- the value comes after the write
        rw [writeGenerated_of_changed hcompose haction] at h
        obtain ⟨_, w₁, -, h⟩ := Work.runIn_bind_ok h
        exact (Prod.mk.inj h).1

/-- How a merge fails: for what the file holds, or for the new text. -/
theorem mergeInto_eq_error {bytes : List UInt8} {failure : Failure}
    (h : mergeInto path bytes new = .error failure) :
    (∃ reason, failure = .conflict path.text reason) ∨
      ∃ flaw existing, failure = .unmarked path.text flaw ∧
        Region.splice existing new.toList = .error (.generated flaw) := by
  rw [mergeInto] at h
  split at h
  · exact .inl ⟨_, (Except.error.inj h).symm⟩
  · rename_i existing _
    split at h
    · rename_i flaw hsplice
      exact .inr ⟨flaw, existing, (Except.error.inj h).symm, hsplice⟩
    · exact .inl ⟨_, (Except.error.inj h).symm⟩
    · simp at h

/-- How a file fails to be composed: it cannot be read, or not be merged into. -/
theorem composeOn_eq_error {d : Disk} {failure : Failure}
    (h : composeOn d path new isAppend = .error failure) :
    (∃ fault, failure = .disk fault ∧
      (d.exists? path = .error fault ∨
        d.exists? path = .ok true ∧ d.read path = .error fault)) ∨
      ∃ bytes, mergeInto path bytes new = .error failure := by
  rw [composeOn] at h
  split at h
  · rename_i fault hexists
    exact .inl ⟨fault, (Except.error.inj h).symm, .inl hexists⟩
  · simp at h
  · rename_i hexists
    split at h
    · rename_i fault hread
      exact .inl ⟨fault, (Except.error.inj h).symm, .inr ⟨hexists, hread⟩⟩
    · rename_i bytes _
      cases isAppend with
      | false => simp at h
      | true => exact .inr ⟨bytes, by simpa using h⟩

end WriteGenerated

end Stencil.Module
