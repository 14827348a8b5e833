import Stencil.Proofs.Module.Success

/-!
# Stencil — what a dry run predicts

A dry run decides on every file by the disk as it is, a real run by a disk that
has the earlier files on it. They come to the same, because the planned files
lie at different places: where a real run succeeds, or fails for what the files
of the module say, the dry run has the same answer.

Main results:

* `generateOn_of_real` — what a real run comes to can be said by the first disk;
* `dryRun_predicts` — a dry run changes nothing and has the answer of the real
  one.
-/

namespace Stencil.Module

open Stencil.Disk

/-! ## The two requests -/

section Requests

variable (d : Disk) (r : Request) (isDryRun : Bool)

/-- The type files are read for a dry run as for a real one. -/
theorem collectAllOn_dryRun (operations : List String) :
    collectAllOn d { r with isDryRun } operations = collectAllOn d r operations := by
  induction operations with
  | nil => rfl
  | cons operation rest ih =>
    rw [collectAllOn, collectAllOn, ih]
    rfl

theorem gatherOn_dryRun : gatherOn d { r with isDryRun } = gatherOn d r := by
  rw [gatherOn, gatherOn, ← collectAllOn_dryRun d r isDryRun]
  rfl

theorem generateOn_dryRun : generateOn d { r with isDryRun } = generateOn d r := by
  rw [generateOn, generateOn, gatherOn_dryRun]
  rfl

end Requests

/-- A valid request is valid whether anything is to be written or not. -/
theorem valid_dryRun {r : Request} (h : r.Valid) (isDryRun : Bool) :
    Request.Valid { r with isDryRun } :=
  ⟨h.name, h.apiType⟩

theorem undisturbed_dryRun {r : Request} {w : World} (h : Undisturbed r w) (isDryRun : Bool) :
    Undisturbed { r with isDryRun } w :=
  ⟨h.tree, h.noLinks, h.unlogged⟩

/-! ## The two runs -/

/-- A run that ends as the files of the module decide: it succeeds, the module's
directory is missing, a type file does not parse, or a file is in conflict. -/
def IsDecided {α : Type} (result : Except Failure α) : Prop :=
  ∀ failure, result = .error failure →
    IsReadingFailure failure ∨ ∃ path reason, failure = .conflict path reason

/-- The first failure is the answer. -/
private theorem mapM_eq_error {α β ε : Type} {f : α → Except ε β} {before after : List α} {a : α}
    {e : ε} (hbefore : ∀ x ∈ before, ∃ y, f x = .ok y) (ha : f a = .error e) :
    (before ++ a :: after).mapM f = .error e := by
  induction before with
  | nil => rw [List.nil_append, List.mapM_cons, ha]; rfl
  | cons x before ih =>
    obtain ⟨y, hy⟩ := hbefore x (by simp)
    rw [List.cons_append, List.mapM_cons, hy, ih fun z hz => hbefore z (by simp [hz])]
    rfl

section Runs

variable {r : Request} {w w' : World} {result : Except Failure (List WrittenFile)}

/-- **What a real run comes to** can be said by the first disk. -/
theorem generateOn_of_real (hr : r.Valid) (hw : Undisturbed r w) (hreal : r.isDryRun = false)
    (hrun : (generate r).runIn w = (result, w')) (hdecided : IsDecided result) :
    generateOn w.disk r = result := by
  cases result with
  | ok written =>
    obtain ⟨top, collected, hcompleted⟩ := generate_eq_ok hr hw hreal hrun
    rw [generateOn, hcompleted.gathered]
    exact hcompleted.written
  | error failure =>
    rcases hdecided failure rfl with hreading | ⟨path, reason, rfl⟩
    · rw [generateOn, (generate_reading_failed hr hw hrun hreading).1]
    · -- the files before the conflict have gone through
      obtain ⟨collected, before, file, after, hgather, hfiles, hat⟩ :=
        generate_conflict hr hw hreal hrun
      rw [generateOn, hgather]
      show (plannedFiles r collected).mapM (writtenOn w.disk r) = _
      rw [hfiles]
      refine mapM_eq_error (fun f hf => ?_) ?_
      · obtain ⟨composed, hcomposed, -⟩ := hat.written f hf
        rw [compose_runIn] at hcomposed
        exact ⟨f.report composed, congrArg (Except.map f.report) hcomposed⟩
      · have hrefused := hat.refused
        rw [compose_runIn] at hrefused
        exact congrArg (Except.map file.report) hrefused

/-- **A dry run predicts the real one.** It changes nothing; and if the real run
from the same world succeeds, or ends because the module's directory is missing,
a type file does not parse, or a file is in conflict, the dry run has the same
answer: the same files with the same contents and actions, or the same failure. -/
theorem dryRun_predicts (hr : r.Valid) (hw : Undisturbed r w) {dry : World}
    {predicted : Except Failure (List WrittenFile)}
    (hdry : (generate { r with isDryRun := true }).runIn w = (predicted, dry))
    (hreal : (generate { r with isDryRun := false }).runIn w = (result, w')) :
    (∀ q, ¬ w.IsLog q → dry.disk.look q = w.disk.look q) ∧
      (IsDecided result → predicted = result) := by
  obtain ⟨w₁, hrun, hlog⟩ := generate_quiet (valid_dryRun hr true)
    (undisturbed_dryRun hw true).enclosed fun _ _ _ _ => .inl rfl
  obtain ⟨rfl, rfl⟩ := Prod.mk.inj (hrun.symm.trans hdry)
  refine ⟨hlog.other, fun hdecided => ?_⟩
  rw [← generateOn_of_real (valid_dryRun hr false) (undisturbed_dryRun hw false) rfl hreal hdecided]
  exact (generateOn_dryRun w.disk r true).trans (generateOn_dryRun w.disk r false).symm

end Runs

/-- The files of the new module are told beforehand. -/
theorem predicted_freshWorld :
    ∃ written dry w',
      (generate { freshRequest with isDryRun := true }).runIn freshWorld = (.ok written, dry) ∧
        (generate { freshRequest with isDryRun := false }).runIn freshWorld = (.ok written, w') ∧
        ∀ q, ¬ freshWorld.IsLog q → dry.disk.look q = freshWorld.disk.look q := by
  obtain ⟨written, w', hreal⟩ := generate_freshWorld
  cases hdry : (generate { freshRequest with isDryRun := true }).runIn freshWorld with
  | mk predicted dry =>
    obtain ⟨hunchanged, hsame⟩ :=
      dryRun_predicts valid_freshRequest undisturbed_freshWorld hdry hreal
    obtain rfl := hsame (by simp [IsDecided])
    exact ⟨written, dry, w', rfl, hreal, hunchanged⟩

end Stencil.Module
