import Stencil.Proofs.Module.Directories

/-!
# Stencil — writes that may be refused at any step

A write makes directories, looks at the permissions of what it replaces, makes a
temporary file, fills it, sets its permissions and moves it to its path. Each of
these steps may be refused. Whichever is, no file has changed by then: the
temporary file is removed again, and only directories on the way of the path are
left. A write that is not refused has put one file where the path leads.

The path may lead elsewhere once its directories have been made, if it turns back
with a `..` from one of them; and it may lead nowhere once the file is there, if it
comes through a link to a directory at the place of the file
(`atomicWrite_turning_back`).

Main results:

* `fillAndMove_mayEnd`, `moveOrRemove_mayEnd` — the steps from the temporary file on;
* `atomicWrite_ends` — how a write may end;
* `atomicWrite_mayEnd` — what that leaves on the disk.
-/

namespace Stencil.Module

open Stencil.Disk Stencil.Work

variable {path temporary : Path} {w w' : World}

/-! ## The steps of a write -/

/-- **The permissions to keep** are those of what the path leads to, or those of a new
file if that is nothing. -/
theorem modeToKeep_mayEnd {result : Except Failure Nat}
    (h : (modeToKeep path).MayEnd w result w') :
    w' = w ∧ ∀ mode, result = .ok mode →
      w.disk.modeAt path = .ok mode ∨ w.disk.exists? path = .ok false ∧ mode = newFileMode := by
  rw [modeToKeep] at h
  rcases mayEnd_bind.mp h with ⟨isThere, w₁, hlook, h⟩ | ⟨failure, hlook, rfl⟩
  · obtain ⟨rfl, hanswer⟩ := mayEnd_exists? hlook
    cases isThere with
    | false =>
      obtain ⟨rfl, rfl⟩ := mayEnd_pure.mp h
      refine ⟨rfl, fun mode hmode => .inr ⟨hanswer false rfl, ?_⟩⟩
      exact (Except.ok.inj hmode).symm
    | true =>
      replace h : (Work.mode path).MayEnd w₁ result w' := by
        simpa using h
      cases result with
      | error failure => exact ⟨(Refusable.mode path).of_error h, by simp⟩
      | ok mode =>
        have hrun := (Refusable.mode path).of_ok h
        rw [runIn_mode] at hrun
        obtain ⟨hanswer, rfl⟩ := Prod.mk.inj hrun
        refine ⟨rfl, fun mode' hmode => .inl ?_⟩
        rw [← Except.ok.inj hmode]
        exact mapError_eq_ok.mp hanswer
  · exact ⟨(mayEnd_exists? hlook).1, by simp⟩

/-- **A new file is filled and moved**, or it is still the only one that is not as
it was before it was made. -/
theorem fillAndMove_mayEnd {t : Place} {content : List UInt8} {mode : Nat}
    {result : Except Failure Unit} (hnul : temporary.hasNul = false)
    (ht : w.disk.locate .atLink temporary = .ok t) (hnone : w.disk.look t = none)
    (h : (fillAndMove temporary path content mode).MayEnd
      { w with disk := w.disk.put t (.file [] temporaryMode) } result w') :
    (∃ d d', Replaced t content mode w.disk d ∧ d.rename temporary path = .ok d' ∧
        w' = { World.forget { w with disk := d } path with disk := d' } ∧ result = .ok ()) ∨
      ∃ failure bytes mode', result = .error failure ∧ Replaced t bytes mode' w.disk w'.disk := by
  obtain ⟨filled, set, hmade, hfill, hfilled, hsetMode, hset⟩ :=
    fill_temporary hnul ht hnone content mode
  rw [fillAndMove] at h
  rcases mayEnd_bind.mp h with ⟨_, w₁, hstep, h⟩ | ⟨failure, hstep, rfl⟩
  · have hrun := (Refusable.fill temporary content).of_ok hstep
    rw [runIn_fill_of_ok hfill] at hrun
    obtain ⟨-, rfl⟩ := Prod.mk.inj hrun
    rcases mayEnd_bind.mp h with ⟨_, w₂, hstep, h⟩ | ⟨failure, hstep, rfl⟩
    · have hrun := (Refusable.setMode temporary mode).of_ok hstep
      rw [runIn_setMode_of_ok hsetMode] at hrun
      obtain ⟨-, rfl⟩ := Prod.mk.inj hrun
      cases result with
      | error failure =>
        obtain rfl := (Refusable.rename temporary path).of_error h
        exact .inr ⟨failure, _, _, rfl, hset⟩
      | ok _ =>
        have hrun := (Refusable.rename temporary path).of_ok h
        obtain ⟨d', hmoved, hw⟩ := runIn_rename_eq_ok hrun
        exact .inl ⟨_, d', hset, hmoved, hw, rfl⟩
    · obtain rfl := (Refusable.setMode temporary mode).of_error hstep
      exact .inr ⟨failure, _, _, rfl, hfilled⟩
  · obtain rfl := (Refusable.fill temporary content).of_error hstep
    exact .inr ⟨failure, _, _, rfl, hmade⟩

/-- **The file is moved to where the path leads**, or every place is as it was. -/
theorem moveOrRemove_mayEnd {content : List UInt8} {mode : Nat} {result : Except Failure Unit}
    (hname : path.endsInName = true → EndsInName path)
    (h : (do
      let temporary ← Work.makeTemporary path
      match ← outcome (fillAndMove temporary path content mode) with
      | .ok () => return
      | .error failure =>
        Work.remove temporary
        throw failure).MayEnd w result w') :
    (∃ p, path.hasNul = false ∧ EndsInName path ∧ w.disk.locate .atLink path = .ok p ∧
        (∀ m, w.disk.look p ≠ some (.directory m)) ∧ Replaced p content mode w.disk w'.disk ∧
        w'.logPlace? = (if w.logPlace? = some p then none else w.logPlace?) ∧ result = .ok ()) ∨
      (∃ failure, result = .error failure) ∧ w'.disk.here = w.disk.here ∧
        ∀ q, w'.disk.look q = w.disk.look q := by
  rcases mayEnd_bind.mp h with ⟨temporary, w₁, hmake, h⟩ | ⟨failure, hmake, rfl⟩
  · have hrun := (Refusable.makeTemporary path).of_ok hmake
    obtain ⟨d₁, hmade, rfl⟩ := runIn_makeTemporary_eq_ok hrun
    obtain ⟨htemporary, hnul, t, ht, hnone, rfl⟩ := makeTemporary_eq_ok_iff.mp hmade
    obtain ⟨moved, w₂, hmove, h⟩ := mayEnd_bind_outcome.mp h
    rcases fillAndMove_mayEnd hnul ht hnone hmove with
      ⟨d, d', hd, hrename, rfl, rfl⟩ | ⟨failure, bytes, mode', rfl, hd⟩
    · obtain ⟨rfl, rfl⟩ := mayEnd_pure.mp h
      obtain ⟨-, hnul', hends, -, p, -, -, hp, -, hdirectory, -⟩ := rename_eq_ok_iff.mp hrename
      have hlast := hname hends
      have htd : d.locate .atLink temporary = .ok t := hd.locate_new hnone ht
      have hne : t ≠ p := hlast.temporary_ne (htemporary ▸ ht) hp
      -- the temporary file lies elsewhere, so what the path leads to is known from before
      refine .inl ⟨p, hnul', hlast, hd.locate_back hp hne.symm, fun m => ?_,
        rename_replaced hd hnone htd hp (hlast.place_ne_nil hp) hrename,
        logPlace_forget (w := { w with disk := d }) hp, rfl⟩
      rw [← hd.other p hne.symm]
      exact hdirectory m
    · -- what is left of the temporary file is removed
      have hrun := remove_runIn hnul (hd.locate_new hnone ht) hd.self
      rcases mayEnd_bind.mp h with ⟨_, w₃, hremove, h⟩ | ⟨_, hremove, -⟩
      · obtain ⟨rfl, rfl⟩ := mayEnd_throw.mp h
        obtain ⟨-, rfl⟩ := Prod.mk.inj (hrun.symm.trans (mayEnd_remove hremove))
        exact .inr ⟨⟨failure, rfl⟩, hd.here, hd.look_erase hnone⟩
      · have hfails := hrun.symm.trans (mayEnd_remove hremove)
        simp at hfails
  · obtain rfl := (Refusable.makeTemporary path).of_error hmake
    exact .inr ⟨⟨failure, rfl⟩, rfl, fun _ => rfl⟩

/-! ## A whole write -/

/-- What a write leaves that succeeds: directories that had to be made, and then the file
in place of what lay where the path leads. -/
structure Stored (path : Path) (content : List UInt8) (mode : Nat) (p : Place)
    (w between w' : World) : Prop where
  hasNul : path.hasNul = false
  name : EndsInName path
  ensured : Ensured path.parent (.ok ()) w between
  permissions : between.disk.modeAt path = .ok mode ∨
    between.disk.exists? path = .ok false ∧ mode = newFileMode
  place : between.disk.locate .atLink path = .ok p
  directory : ∀ m, between.disk.look p ≠ some (.directory m)
  replaced : Replaced p content mode between.disk w'.disk
  log : w'.logPlace? = if between.logPlace? = some p then none else between.logPlace?

/-- **How a write may end**: it stores the file, or it fails and leaves no more than
directories on the way. -/
theorem atomicWrite_ends {content : String} {result : Except Failure Unit}
    (hname : path.endsInName = true → EndsInName path)
    (h : (atomicWrite path content).MayEnd w result w') :
    (∃ mode p between, Stored path (bytesOf content) mode p w between w' ∧ result = .ok ()) ∨
      (∃ failure, result = .error failure) ∧ Paved path.parent w.disk w'.disk := by
  rw [atomicWrite] at h
  rcases mayEnd_bind.mp h with ⟨_, w₁, hdirectories, hrest⟩ | ⟨failure, hdirectories, rfl⟩
  · have hensured := ensureDirectories_mayEnd hdirectories
    rcases mayEnd_bind.mp hrest with ⟨mode, w₂, hmode, hwrite⟩ | ⟨failure, hmode, rfl⟩
    · obtain ⟨rfl, hmode⟩ := modeToKeep_mayEnd hmode
      rcases moveOrRemove_mayEnd hname hwrite with
        ⟨p, hnul, hlast, hp, hdirectory, hreplaced, hlog, rfl⟩ | ⟨hfailure, hhere, hlook⟩
      · exact .inl ⟨mode, p, w₂,
          ⟨hnul, hlast, hensured, hmode mode rfl, hp, hdirectory, hreplaced, hlog⟩, rfl⟩
      · exact .inr ⟨hfailure, hensured.paved.of_look hhere hlook⟩
    · obtain ⟨rfl, -⟩ := modeToKeep_mayEnd hmode
      exact .inr ⟨⟨failure, rfl⟩, hensured.paved⟩
  · exact .inr ⟨⟨failure, rfl⟩, (ensureDirectories_mayEnd hdirectories).paved⟩

/-- **A write that succeeds** in a run in which nothing is refused. -/
theorem atomicWrite_stored {content : String}
    (hname : path.endsInName = true → EndsInName path)
    (h : (atomicWrite path content).runIn w = (.ok (), w')) :
    ∃ mode p between, Stored path (bytesOf content) mode p w between w' := by
  rcases atomicWrite_ends hname (.of_runIn h) with
    ⟨mode, p, between, hstored, -⟩ | ⟨⟨failure, hfailure⟩, -⟩
  · exact ⟨mode, p, between, hstored⟩
  · simp at hfailure

namespace Stored

variable {content : List UInt8} {mode : Nat} {p : Place} {between : World}

theorem widened (h : Stored path content mode p w between w') : Widened w between :=
  ⟨h.ensured.paved.grown, h.ensured.world⟩

theorem written (h : Stored path content mode p w between w') : Written p content between w' :=
  ⟨⟨mode, h.replaced⟩, h.log⟩

/-- The file has the permissions of what the path led to. -/
theorem mode_eq (h : Stored path content mode p w between w') {e : Entry}
    (he : w.disk.entryAt path = .ok e) : mode = e.mode := by
  have he' := h.ensured.paved.entryAt he
  rcases h.permissions with hmode | ⟨hmissing, -⟩
  · obtain ⟨-, e', he'', rfl⟩ := modeAt_eq_ok_iff.mp hmode
    rw [Except.ok.inj (he'.symm.trans he'')]
  · rw [exists_of_entryAt h.hasNul he'] at hmissing
    simp at hmissing

section Missing

variable (hnormal : path.IsNormal) (htree : IsTree w.disk) (hgrounded : w.disk.Grounded path)
  (hmissing : w.disk.exists? path = .ok false)

include hnormal htree hgrounded hmissing

/-- A path that led nowhere still does once its directory is there, unless it turns
back from a new directory. -/
theorem not_exists (h : Stored path content mode p w between w') :
    between.disk.exists? path ≠ .ok true := by
  intro hthere
  rcases h.ensured.begun rfl with rfl | hbegins
  · rw [hmissing] at hthere
    simp at hthere
  · -- the directory is new, so there was nothing in it
    obtain ⟨top, mode, htop, -, hnone⟩ := look_eq_none_of_begins_self htree
      h.ensured.paved.grown hnormal.parent (hgrounded.parent h.name) hbegins (h.ensured.there rfl)
    obtain ⟨r, m, rfl, hr, -⟩ := h.name.locate_parent h.place
    obtain rfl := Except.ok.inj (htop.symm.trans hr)
    have hfree := htree.look_eq_none hnone (List.suffix_cons path.name top)
    rcases h.ensured.paved.grown.outside _ id with heq | ⟨-, m', hnew⟩
    · rw [hfree] at heq
      obtain ⟨-, e, hentry⟩ := exists_eq_true_iff.mp hthere
      obtain ⟨q, hq, hlook⟩ := entryAt_eq_ok_iff.mp hentry
      obtain rfl := Except.ok.inj ((locate_beyond_of_none h.place (by simp [heq])).symm.trans hq)
      rw [heq] at hlook
      simp at hlook
    · exact h.directory m' hnew

/-- Its file has the permissions of a new one. -/
theorem mode_eq_new (h : Stored path content mode p w between w') : mode = newFileMode := by
  rcases h.permissions with hmode | ⟨-, hmode⟩
  · obtain ⟨-, e, he, -⟩ := modeAt_eq_ok_iff.mp hmode
    exact (h.not_exists hnormal htree hgrounded hmissing (exists_of_entryAt h.hasNul he)).elim
  · exact hmode

end Missing

/-- The file is read where it was written, unless that was on its own path. -/
theorem read (h : Stored path content mode p w between w') (hend : IsEnd between.disk p) :
    w'.disk.read path = .ok content :=
  read_eq_ok_iff.mpr ⟨h.hasNul, mode, h.replaced.entryAt_eq hend h.place⟩

end Stored

/-- A world in which nothing lies in the working directory. -/
private def bareWorld : World := .ofDisk (.empty ["w"])

/-- The same world with a directory. -/
private def pavedWorld : World :=
  { bareWorld with disk := bareWorld.disk.put ["a", "w"] (.directory newDirectoryMode) }

/-- A world with a file that can be executed. -/
private def executableWorld : World :=
  .ofDisk ⟨[(["x"], .file [] 0o755)], []⟩

/-- A world with a link to a directory. -/
private def linkedWorld : World :=
  .ofDisk ⟨[(["a"], .link "d"), (["d"], .directory newDirectoryMode)], []⟩

end Stencil.Module
