import Stencil.Proofs.Module.Generate

/-!
# Stencil — generations that write nothing

A dry run writes nothing, and neither does a run that finds every file to hold
what it is to hold. Both change the log file at most, and what they come to can
be said by the disk alone: `generateOn`.

Main results:

* `emit_quiet` — the second phase writes nothing;
* `generate_quiet` — the whole generation comes to `generateOn`.
-/

namespace Stencil.Module

open Stencil.Disk

/-- What a generation comes to where the disk grants every write. -/
def generateOn (d : Disk) (r : Request) : Except Failure (List WrittenFile) :=
  match gatherOn d r with
  | .error failure => .error failure
  | .ok collected => (plannedFiles r collected).mapM (writtenOn d r)

/-- Nothing is written for the file: nothing is ever written, or the file is to
hold what it holds. -/
def Quiet (d : Disk) (r : Request) (f : PlannedFile) : Prop :=
  r.isDryRun = true ∨
    ∀ composed, composeOn d f.path f.content r.isAppend = .ok composed →
      composed.action = .unchanged

section Steps

variable {r : Request} {w₀ w : World} {base : Path} {top : Place}

/-- Log records do not change what a file is to hold. -/
theorem composeOn_logged (hlog : World.Logged w₀ w) {f : PlannedFile}
    (hplan : Plannable w₀.disk base top f.path)
    (hunlogged : ¬ w₀.IsLog (placeBelow base top f.path)) :
    composeOn w.disk f.path f.content r.isAppend =
      composeOn w₀.disk f.path f.content r.isAppend := by
  have hexists := hlog.sameShape.exists_eq f.path
  have hread : w.disk.read f.path = w₀.disk.read f.path :=
    hlog.read_eq fun q hq => hplan.place_eq (by simp) hq ▸ hunlogged
  rw [composeOn, composeOn, hexists, hread]

/-- One file for which nothing is written. -/
theorem writePlanned_quiet {f : PlannedFile} (hquiet : Quiet w.disk r f) :
    ∃ w', (writePlanned r f).runIn w = (writtenOn w.disk r f, w') ∧ World.Logged w w' := by
  rw [writePlanned, writtenOn, Work.runIn_bind]
  cases hcompose : composeOn w.disk f.path f.content r.isAppend with
  | error failure =>
    obtain ⟨w', hrun, hlog⟩ := writeGenerated_of_error hcompose
    rw [hrun]
    exact ⟨w', rfl, hlog⟩
  | ok composed =>
    have hwritten : ∃ w', (writeGenerated f.path f.content r.isAppend r.isDryRun).runIn w =
        (.ok composed, w') ∧ World.Logged w w' := by
      cases hdry : r.isDryRun with
      | true => exact writeGenerated_dry hcompose
      | false =>
        have haction := hquiet.resolve_left (by simp [hdry]) composed hcompose
        exact writeGenerated_of_unchanged hcompose haction
    obtain ⟨w', hrun, hlog⟩ := hwritten
    rw [hrun]
    exact ⟨w', rfl, hlog⟩

/-- **The second phase** of a generation that writes nothing. -/
theorem emit_quiet {files : List PlannedFile} (hplan : AllPlannable w₀ base top files)
    (hquiet : ∀ f ∈ files, Quiet w₀.disk r f) (hlog : World.Logged w₀ w) :
    ∃ w', (files.mapM (writePlanned r)).runIn w = (files.mapM (writtenOn w₀.disk r), w') ∧
      World.Logged w₀ w' := by
  -- on the files; the world changes by log records only
  induction files generalizing w with
  | nil => exact ⟨w, rfl, hlog⟩
  | cons f files ih =>
    have hsame := composeOn_logged (r := r) hlog (hplan.each f (by simp))
      (hplan.unlogged f (by simp))
    have hquietNow : Quiet w.disk r f := by
      rw [Quiet, hsame]
      exact hquiet f (by simp)
    obtain ⟨w₁, hrun, hlog₁⟩ := writePlanned_quiet hquietNow
    rw [writtenOn, hsame, ← writtenOn] at hrun
    rw [List.mapM_cons, List.mapM_cons, Work.runIn_bind, hrun]
    cases writtenOn w₀.disk r f with
    | error failure => exact ⟨w₁, rfl, hlog.trans hlog₁⟩
    | ok written =>
      have hplanRest : AllPlannable w₀ base top files :=
        ⟨fun g hg => hplan.each g (by simp [hg]), fun g hg => hplan.unlogged g (by simp [hg]),
          (List.pairwise_cons.mp hplan.distinct).2⟩
      obtain ⟨w₂, hrest, hlog₂⟩ := ih hplanRest (fun g hg => hquiet g (by simp [hg]))
        (hlog.trans hlog₁)
      dsimp only
      rw [Work.runIn_bind, hrest]
      cases files.mapM (writtenOn w₀.disk r) with
      | error failure => exact ⟨w₂, rfl, hlog₂⟩
      | ok rest => exact ⟨w₂, rfl, hlog₂⟩

/-- **A generation that writes nothing** comes to what the disk says. -/
theorem generate_quiet (hr : r.Valid)
    (hw : w.disk.isDirectory? r.modulePath = .ok true → ∃ top, Enclosed r top w)
    (hquiet : ∀ collected, gatherOn w.disk r = .ok collected →
      ∀ f ∈ plannedFiles r collected, Quiet w.disk r f) :
    ∃ w', (generate r).runIn w = (generateOn w.disk r, w') ∧ World.Logged w w' := by
  have hapart : w.disk.isDirectory? r.modulePath = .ok true → LogApart r w := by
    intro hthere
    obtain ⟨top, htop⟩ := hw hthere
    exact htop.logApart hr
  obtain ⟨w₁, hcollect, hlog₁⟩ := collect_runIn hapart (.log w _)
  rw [generate, Work.runIn_bind, Work.runIn_log]
  dsimp only
  rw [Work.runIn_bind, hcollect, generateOn]
  cases hgather : gatherOn w.disk r with
  | error failure => exact ⟨w₁, rfl, hlog₁⟩
  | ok collected =>
    obtain ⟨hthere, hall⟩ := gatherOn_eq_ok hgather
    obtain ⟨top, htop⟩ := hw hthere
    have hplan := plannedFiles_plannable htop hr (map_fst_collectAllOn hall)
    obtain ⟨w₂, hemit, hlog₂⟩ := emit_quiet hplan (hquiet collected hgather) hlog₁
    dsimp only
    rw [Work.runIn_bind, hemit]
    -- the last record tells how many files there are
    cases (plannedFiles r collected).mapM (writtenOn w.disk r) with
    | error failure => exact ⟨w₂, rfl, hlog₂⟩
    | ok written => exact ⟨_, rfl, hlog₂.trans (.log w₂ _)⟩

end Steps

end Stencil.Module
