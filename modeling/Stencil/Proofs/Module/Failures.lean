import Stencil.Proofs.Disk.Refusal
import Stencil.Proofs.Module.Body
import Stencil.Proofs.Module.Confined
import Stencil.Proofs.Module.Quiet

/-!
# Stencil — how the generation of a module fails

What goes wrong with the files of a module is a failure of that module: a type
file that does not parse, a generated file that cannot be merged into, or
something that the disk refuses. There is one exception. A type file that can be
read and is no text ends the generation with a failure of another kind.

Main results:

* `gatherOn_eq_undecodable` — when the first phase ends in that way;
* `atomicWrite_refused` — a write below the module's directory fails only because
  the disk refuses;
* `generate_failure` — how a whole generation fails.
-/

namespace Stencil.Module

open Stencil.Disk Stencil.Naming Stencil.Region Stencil.Source Stencil.Text

/-! ## Reading the type files -/

section Reading

variable {r : Request} {d : Disk} {operation : String} {failure : Failure}

/-- The type file of an operation is there, and can be read, but is no text. -/
def Illegible (d : Disk) (r : Request) (operation : String) (fault : Utf8.Fault) : Prop :=
  d.isFile? (typeFile r operation) = .ok true ∧
    ∃ bytes, d.read (typeFile r operation) = .ok bytes ∧ Utf8.decode bytes = .error fault

theorem collectOn_eq_undecodable {fault : Utf8.Fault} :
    collectOn d r operation = .error (.undecodable fault) ↔ Illegible d r operation fault := by
  rw [collectOn, Illegible, payloadOn]
  -- one case for each thing that can be wrong with the file, in the order of reading it
  cases d.isFile? (typeFile r operation) with
  | error fault' => simp
  | ok isThere =>
    cases isThere with
    | false => simp
    | true =>
      cases d.read (typeFile r operation) with
      | error fault' => simp
      | ok bytes =>
        simp only [Except.ok.injEq, true_and, exists_eq_left']
        cases Utf8.decode bytes with
        | error fault' => simp
        | ok cs =>
          dsimp only
          cases Payload.parse (String.ofList (unifyLineEnds cs)) (typeFile r operation).text <;>
            simp [Except.mapError]

/-- A type file that stops the first phase is illegible, or the failure is the
module's own. -/
theorem collectOn_failure (h : collectOn d r operation = .error failure) :
    isModuleFailure failure = true ∨ ∃ fault, failure = .undecodable fault := by
  rw [collectOn] at h
  split at h
  · rename_i fault hfile
    rw [← Except.error.inj h]
    exact .inl (isRefusal_of_isFile hfile)
  · simp at h
  · rename_i hfile
    cases hpayload : payloadOn d (typeFile r operation) with
    | ok payload => simp [hpayload] at h
    | error failure' =>
      rcases payloadOn_eq_error hpayload with
        ⟨fault, rfl, hread⟩ | ⟨fault, rfl⟩ | ⟨cause, bytes, cs, rfl, -⟩
      · rw [hpayload] at h
        rw [← Except.error.inj h]
        exact .inl (isRefusal_of_read (hasNul_of_isFile hfile) hread)
      · rw [hpayload] at h
        exact .inr ⟨fault, (Except.error.inj h).symm⟩
      · rw [hpayload] at h
        rw [← Except.error.inj h]
        exact .inl rfl

/-- **The first phase fails** with a failure of the module, or because a type file
is illegible. -/
theorem gatherOn_failure (h : gatherOn d r = .error failure) :
    isModuleFailure failure = true ∨ ∃ fault, failure = .undecodable fault := by
  rw [gatherOn] at h
  split at h
  · rename_i fault hthere
    rw [← Except.error.inj h]
    exact .inl (isRefusal_of_isDirectory hthere)
  · rw [← Except.error.inj h]
    exact .inl rfl
  · obtain ⟨-, operation, -, -, hfailed, -⟩ := collectAllOn_eq_error h
    exact collectOn_failure hfailed

/-- The first phase comes to an illegible type file: nothing is wrong with those
before it. -/
def StopsIllegible (d : Disk) (r : Request) (fault : Utf8.Fault) : Prop :=
  d.isDirectory? r.modulePath = .ok true ∧
    ∃ before operation after, r.operations = before ++ operation :: after ∧
      Illegible d r operation fault ∧ ∀ o ∈ before, ∃ payload?, collectOn d r o = .ok payload?

/-- **When an illegible type file ends the first phase.** -/
theorem gatherOn_eq_undecodable {fault : Utf8.Fault} :
    gatherOn d r = .error (.undecodable fault) ↔ StopsIllegible d r fault := by
  constructor
  · intro h
    rw [gatherOn] at h
    split at h
    · simp at h
    · simp at h
    · rename_i hthere
      obtain ⟨before, operation, after, hsplit, hfailed, hbefore⟩ := collectAllOn_eq_error h
      exact ⟨hthere, before, operation, after, hsplit, collectOn_eq_undecodable.mp hfailed,
        hbefore⟩
  · rintro ⟨hthere, before, operation, after, hsplit, hillegible, hbefore⟩
    rw [gatherOn, hthere]
    dsimp only
    rw [hsplit]
    exact collectAllOn_of_failed hbefore (collectOn_eq_undecodable.mpr hillegible)

end Reading

/-! ## Composing -/

section Composing

variable {d : Disk} {path : Path} {body : String} {failure : Failure}

/-- A wrapped body has a region, so it is never at fault for a merge. -/
theorem splice_ne_generated (hbody : IsBody body.toList) (existing : List Char) (flaw : Flaw) :
    splice existing (wrapped body).toList ≠ .error (.generated flaw) := by
  have hwell : WellMarked (wrapped body).toList := by
    rw [wrapped, String.toList_ofList]
    exact (cutAt_wrap hbody).wellMarked
  intro h
  by_cases hexisting : WellMarked existing
  · obtain ⟨out, hout⟩ := exists_splice_iff.mpr ⟨hexisting, hwell⟩
    simp [hout] at h
  · obtain ⟨flaw', hflaw⟩ := splice_eq_error_existing hwell hexisting
    simp [hflaw] at h

/-- **What a file is to hold** can be told, or the failure is the module's own. -/
theorem composeOn_failure {isAppend : Bool} (hbody : IsBody body.toList)
    (h : composeOn d path (wrapped body) isAppend = .error failure) :
    isModuleFailure failure = true := by
  rcases composeOn_eq_error h with ⟨fault, rfl, hexists | ⟨hexists, hread⟩⟩ | ⟨bytes, hmerge⟩
  · exact isRefusal_of_exists hexists
  · exact isRefusal_of_read (hasNul_of_exists hexists) hread
  · rcases mergeInto_eq_error hmerge with ⟨reason, rfl⟩ | ⟨flaw, existing, -, hsplice⟩
    · rfl
    · exact (splice_ne_generated hbody existing flaw hsplice).elim

end Composing

/-! ## Writing -/

section Writing

/-- The disk has refused something. -/
def IsDiskRefusal (failure : Failure) : Prop :=
  failure.isDiskRefusal = true

/-- What the disk refuses is a failure of the module. -/
theorem IsDiskRefusal.isModuleFailure {failure : Failure} (h : IsDiskRefusal failure) :
    Module.isModuleFailure failure = true := by
  cases failure with
  | generation _ _ _ => rfl
  | conflict _ _ => rfl
  | _ => exact h

variable {base p t : Path} {top : Place} {names : List String} {last : String} {w w' : World}
  {failure : Failure}

/-- A change of the disk that is only ever refused. -/
private theorem granted_change {s : Script (Except Fault Unit)} {f : World → Except Fault Disk}
    (hs : ∀ w, (s.run w).1 = (f w).map fun _ => ())
    (hf : ∀ w fault, f w = .error fault → fault.isRefusal = true) :
    Work.FailsOnly IsDiskRefusal (Work.granted s) := by
  refine .granted fun w fault h => hf w fault ?_
  rw [hs] at h
  cases hw : f w with
  | ok d => simp [hw, Except.map] at h
  | error fault' => simpa [hw, Except.map] using h

private theorem change_answer (w : World) (result : Except Fault Disk) :
    (w.change result).1 = result.map fun _ => () := by
  cases result <;> rfl

private theorem replace_answer (w : World) (path : Path) (result : Except Fault Disk) :
    (w.replace path result).1 = result.map fun _ => () := by
  cases result <;> rfl

theorem ensureDirectories_refused (hnul : p.hasNul = false) :
    Work.FailsOnly IsDiskRefusal (ensureDirectories p) := by
  refine ensureDirectories_fails fun q hq => ?_
  have hqnul : q.hasNul = false := Path.hasNul_eq_false_iff.mpr fun x hx =>
    Path.hasNul_eq_false_iff.mp hnul x (hq hx)
  refine ensureDirectory_fails ?_ (.granted fun w fault => isRefusal_of_isDirectory)
  exact granted_change (fun w => change_answer w (w.disk.makeDirectory q)) fun w fault =>
    isRefusal_of_makeDirectory hqnul

theorem modeToKeep_refused (hnul : p.hasNul = false) :
    Work.FailsOnly IsDiskRefusal (modeToKeep p) :=
  modeToKeep_fails (.granted fun _ _ => isRefusal_of_exists) (.granted fun _ _ =>
    isRefusal_of_modeAt hnul)

theorem fillAndMove_refused (ht : t.hasNul = false) (hp : p.hasNul = false) (content : List UInt8)
    (mode : Nat) : Work.FailsOnly IsDiskRefusal (fillAndMove t p content mode) := by
  refine .bind ?_ fun _ => .bind ?_ fun _ => ?_
  · exact granted_change (fun w => change_answer w (w.disk.fill t content)) fun w fault =>
      isRefusal_of_fill
  · exact granted_change (fun w => change_answer w (w.disk.setMode t mode)) fun w fault =>
      isRefusal_of_setMode ht
  · exact granted_change (fun w => replace_answer w p (w.disk.rename t p)) fun w fault =>
      isRefusal_of_rename ht hp

/-- **A write below a site** fails only because the disk refuses something. -/
theorem atomicWrite_refused (hw : w.Has base top) (hplain : ∀ x ∈ names ++ [last], IsName x)
    (hnul : ∀ x ∈ names ++ [last], '\x00' ∉ x.toList) {content : String}
    (hrun : (atomicWrite (pathBelow base (names ++ [last])) content).runIn w =
      (.error failure, w')) : IsDiskRefusal failure := by
  have hparts : ∀ x ∈ base.parts, '\x00' ∉ x.toList := Path.hasNul_eq_false_iff.mp hw.site.noNul
  have hpnul : (pathBelow base (names ++ [last])).hasNul = false :=
    Path.hasNul_eq_false_iff.mpr fun x hx => (List.mem_append.mp hx).elim (hparts x) (hnul x)
  have hparentNul : (pathBelow base names).hasNul = false :=
    Path.hasNul_eq_false_iff.mpr fun x hx => (List.mem_append.mp hx).elim (hparts x) fun hx' =>
      hnul x (List.mem_append_left _ hx')
  have hnames : ∀ x ∈ names, IsName x := fun x hx => hplain x (List.mem_append_left _ hx)
  have hdown : Down base top (names ++ [last]) _ := down_concat hnames (hplain last (by simp))
  rw [atomicWrite, parent_pathBelow] at hrun
  -- the directories and the mode do not take the site away
  rcases Work.runIn_bind_error hrun with hrun | ⟨_, w₁, hrun₁, hrun⟩
  · exact ensureDirectories_refused hparentNul w failure w' hrun
  have hw₁ := (ensureDirectories_local hnames w hw).has hw hrun₁
  rcases Work.runIn_bind_error hrun with hrun | ⟨mode, w₂, hrun₂, hrun⟩
  · exact modeToKeep_refused hpnul w₁ failure w' hrun
  have hw₂ := (modeToKeep_local hdown w₁ hw₁).has hw₁ hrun₂
  rcases Work.runIn_bind_error hrun with hrun | ⟨t, w₃, hrun₃, hrun⟩
  · obtain ⟨fault, hmade, rfl⟩ := Work.runIn_makeTemporary_eq_error hrun
    exact hw₂.site.isRefusal_of_makeTemporary hnames (fun x hx => hnul x (by simp [hx]))
      (hnul last (by simp)) hmade
  · obtain ⟨d, hmade, -⟩ := Work.runIn_makeTemporary_eq_ok hrun₃
    have htnul : t.hasNul = false := (makeTemporary_eq_ok_iff.mp hmade).2.1
    refine moveOrRemove_fails (fillAndMove_refused htnul hpnul _ mode) ?_ w₃ failure w' hrun
    exact remove_fails fun w fault => isRefusal_of_remove htnul

end Writing

/-! ## The whole generation -/

section Runs

variable {r : Request} {w w' : World} {top : Place} {failure : Failure}

/-- **A planned file** is written, or the failure is the module's own. -/
theorem writePlanned_failure (hr : r.Valid) (hw : w.Has r.modulePath top) {collected : Collected}
    {d : Disk} (hcollected : collectAllOn d r r.operations = .ok collected) {f : PlannedFile}
    (hf : f ∈ plannedFiles r collected)
    (hrun : (writePlanned r f).runIn w = (.error failure, w')) :
    isModuleFailure failure = true := by
  obtain ⟨body, hcontent, hbody⟩ := exists_body hr (map_fst_collectAllOn hcollected)
    (allRead_of_collectAllOn hcollected) hf
  obtain ⟨names, last, hpath, hplain, hnul⟩ :=
    exists_names_of_mem_plannedFiles hr (map_fst_collectAllOn hcollected) hf
  rw [writePlanned, hpath, hcontent] at hrun
  rcases Work.runIn_bind_error hrun with hrun | ⟨composed, w₁, -, hrun⟩
  · rcases writeGenerated_eq_error hrun with ⟨hcompose, -⟩ | ⟨content, hwrite⟩
    · exact composeOn_failure hbody hcompose
    · exact IsDiskRefusal.isModuleFailure (atomicWrite_refused hw hplain hnul hwrite)
  · exact absurd (Prod.mk.inj hrun).1 (by simp)

/-- **How a generation fails**: with a failure of the module, or because a type
file is illegible. -/
theorem generate_failure (hr : r.Valid)
    (hw : w.disk.isDirectory? r.modulePath = .ok true → ∃ top, w.Has r.modulePath top)
    (hrun : (generate r).runIn w = (.error failure, w')) :
    isModuleFailure failure = true ∨
      ∃ fault, failure = .undecodable fault ∧ StopsIllegible w.disk r fault := by
  have hapart : w.disk.isDirectory? r.modulePath = .ok true → LogApart r w := by
    intro hthere
    obtain ⟨top, htop⟩ := hw hthere
    exact (enclosed_of_has htop).logApart hr
  rcases generate_eq_error hapart hrun with ⟨hgather, -⟩ | ⟨collected, w₁, hgather, hlog, hwrite⟩
  · rcases gatherOn_failure hgather with hmodule | ⟨fault, rfl⟩
    · exact .inl hmodule
    · exact .inr ⟨fault, rfl, gatherOn_eq_undecodable.mp hgather⟩
  · obtain ⟨hthere, hcollected⟩ := gatherOn_eq_ok hgather
    obtain ⟨top, htop⟩ := hw hthere
    have hw₁ : w₁.Has r.modulePath top := htop.confined (.of_logged hlog (S := fun _ => False))
    obtain ⟨before, f, after, written, w₂, hfiles, hbefore, hf⟩ := Work.mapM_runIn_error hwrite
    -- the site is still there when the file comes that fails
    have hlocal : Work.Local r.modulePath top (before.mapM (writePlanned r)) := .mapM fun g hg =>
      writePlanned_local hr (map_fst_collectAllOn hcollected) (by simp [hfiles, hg])
    have hw₂ := (hlocal w₁ hw₁).has hw₁ hbefore
    exact .inl (writePlanned_failure hr hw₂ hcollected (by simp [hfiles]) hf)

/-- **A failure of the first phase** ends the generation. -/
theorem generate_of_gatherOn_error (hr : r.Valid)
    (hw : w.disk.isDirectory? r.modulePath = .ok true → ∃ top, w.Has r.modulePath top)
    (hgather : gatherOn w.disk r = .error failure) :
    ∃ w', (generate r).runIn w = (.error failure, w') ∧ World.Logged w w' := by
  have henclosed : w.disk.isDirectory? r.modulePath = .ok true → ∃ top, Enclosed r top w := by
    intro hthere
    obtain ⟨top, htop⟩ := hw hthere
    exact ⟨top, enclosed_of_has htop⟩
  obtain ⟨w', hrun, hlog⟩ := generate_quiet hr henclosed fun collected hcollected => by
    simp [hgather] at hcollected
  rw [generateOn, hgather] at hrun
  exact ⟨w', hrun, hlog⟩

end Runs

end Stencil.Module
