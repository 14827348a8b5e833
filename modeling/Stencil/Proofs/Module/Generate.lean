import Stencil.Proofs.Module.Plan

/-!
# Stencil — what a generation that fails leaves behind

Generation first reads everything and then writes one file after the other. If
it fails while reading, the disk is as it was. If a file turns out to be in
conflict, the files before it are written and nothing else is: which file that
is and what is in the files before it can be told from the first disk.

Main results:

* `generate_reading_failed` — failures of the first phase;
* `generate_conflict` — conflicts in the second one;
* `generate_failure_leaves` — both, for every valid request.
-/

namespace Stencil.Module

open Stencil.Disk

/-- The disk is a tree, and where the module's directory is, there is no link and
no log file at it or below it. -/
structure Undisturbed (r : Request) (w : World) : Prop where
  tree : IsTree w.disk
  noLinks : ∀ top, w.disk.locate .beyond r.modulePath = .ok top → NoLinksBelow w.disk top
  unlogged : ∀ top, w.disk.locate .beyond r.modulePath = .ok top →
    ∀ q, top <:+ q → ¬ w.IsLog q

theorem Undisturbed.enclosed {r : Request} {w : World} (h : Undisturbed r w)
    (hthere : w.disk.isDirectory? r.modulePath = .ok true) : ∃ top, Enclosed r top w := by
  obtain ⟨-, m, hentry⟩ := isDirectory_eq_true_iff.mp hthere
  obtain ⟨top, hbase, hlook⟩ := entryAt_eq_ok_iff.mp hentry
  exact ⟨top, hbase, ⟨m, hlook⟩, h.noLinks top hbase, h.unlogged top hbase⟩

theorem Undisturbed.logApart {r : Request} {w : World} (h : Undisturbed r w) (hr : r.Valid)
    (hthere : w.disk.isDirectory? r.modulePath = .ok true) : LogApart r w := by
  obtain ⟨top, htop⟩ := h.enclosed hthere
  exact htop.logApart hr

/-- A failure that ends a generation before anything is written. -/
def IsReadingFailure (failure : Failure) : Prop :=
  (∃ path, failure = .noModule path) ∨ ∃ m op cause, failure = .generation m op cause

section Runs

variable {r : Request} {w w' : World} {failure : Failure}

/-- The two phases of a generation that fails. -/
theorem generate_eq_error
    (hapart : w.disk.isDirectory? r.modulePath = .ok true → LogApart r w)
    (hrun : (generate r).runIn w = (.error failure, w')) :
    gatherOn w.disk r = .error failure ∧ World.Logged w w' ∨
      ∃ collected w₁, gatherOn w.disk r = .ok collected ∧ World.Logged w w₁ ∧
        ((plannedFiles r collected).mapM (writePlanned r)).runIn w₁ = (.error failure, w') := by
  rw [generate, Work.runIn_bind, Work.runIn_log] at hrun
  obtain ⟨w₁, hcollect, hlog⟩ := collect_runIn hapart (.log w _)
  -- either the first phase fails, or it has come to what the disk holds
  rcases Work.runIn_bind_error hrun with hrun | ⟨collected, w₂, hrun₂, hrun⟩
  · obtain ⟨hgather, rfl⟩ := Prod.mk.inj (hcollect.symm.trans hrun)
    exact .inl ⟨hgather, hlog⟩
  · obtain ⟨hgather, rfl⟩ := Prod.mk.inj (hcollect.symm.trans hrun₂)
    refine .inr ⟨collected, w₁, hgather, hlog, ?_⟩
    rcases Work.runIn_bind_error hrun with hrun | ⟨written, w₃, -, hrun⟩
    · exact hrun
    · exact absurd (Prod.mk.inj hrun).1 (by simp)

/-- Writing a planned file is no failure of reading. -/
theorem writePlanned_fails (r : Request) (file : PlannedFile) :
    Work.FailsOnly (fun failure => ¬ IsReadingFailure failure) (writePlanned r file) := by
  refine .bind ?_ fun composed => .pure _
  intro w failure w' hrun
  -- a write is refused by the disk, or by what the file holds
  have hfailure : IsRefused failure ∨ (∃ p reason, failure = .conflict p reason) ∨
      ∃ p flaw, failure = .unmarked p flaw := by
    rcases writeGenerated_eq_error hrun with ⟨hcompose, -⟩ | ⟨content, hwrite⟩
    · rcases composeOn_eq_error hcompose with ⟨fault, hfault, -⟩ | ⟨bytes, hmerge⟩
      · exact .inl ⟨fault, hfault⟩
      · rcases mergeInto_eq_error hmerge with ⟨reason, hreason⟩ | ⟨flaw, existing, hflaw, -⟩
        · exact .inr (.inl ⟨_, reason, hreason⟩)
        · exact .inr (.inr ⟨_, flaw, hflaw⟩)
    · exact .inl (atomicWrite_fails file.path content w failure w' hwrite)
  rintro (⟨path, rfl⟩ | ⟨m, op, cause, rfl⟩)
  · rcases hfailure with ⟨fault, h⟩ | ⟨p, reason, h⟩ | ⟨p, flaw, h⟩ <;> simp at h
  · rcases hfailure with ⟨fault, h⟩ | ⟨p, reason, h⟩ | ⟨p, flaw, h⟩ <;> simp at h

/-- **A generation that fails while reading** has changed nothing but the log
file. -/
theorem generate_reading_failed (hr : r.Valid) (hw : Undisturbed r w)
    (hrun : (generate r).runIn w = (.error failure, w')) (hreading : IsReadingFailure failure) :
    gatherOn w.disk r = .error failure ∧ World.Logged w w' := by
  rcases generate_eq_error (hw.logApart hr) hrun with hfailed | ⟨collected, w₁, -, -, hwrite⟩
  · exact hfailed
  · -- a failure of the second phase is of another kind
    exact (Work.FailsOnly.mapM (fun file _ => writePlanned_fails r file) w₁ failure w' hwrite
      hreading).elim

/-- What a conflict leaves: the files before the one in conflict hold what they
were to hold on the first disk, and no other file has changed. -/
structure ConflictAt (r : Request) (w w' : World) (failure : Failure) (before : List PlannedFile)
    (file : PlannedFile) (after : List PlannedFile) : Prop where
  written : ∀ f ∈ before, ∃ composed,
    ((compose f.path f.content r.isAppend).runIn w).1 = .ok composed ∧
      w'.disk.read f.path = .ok (bytesOf composed.content)
  refused : ((compose file.path file.content r.isAppend).runIn w).1 = .error failure
  unwritten : ∀ f ∈ file :: after, ∀ bytes,
    w'.disk.read f.path = .ok bytes ↔ w.disk.read f.path = .ok bytes
  untouched : ∀ q, (∀ f ∈ before, w'.disk.locate .beyond f.path ≠ .ok q) → ¬ w.IsLog q →
    w'.disk.bytesAt q = w.disk.bytesAt q

/-- A planned file that is in conflict is left alone. -/
theorem writePlanned_conflict {file : PlannedFile} {path : String} {reason : ConflictReason}
    (hrun : (writePlanned r file).runIn w = (.error (.conflict path reason), w')) :
    composeOn w.disk file.path file.content r.isAppend = .error (.conflict path reason) ∧
      World.Logged w w' := by
  rw [writePlanned] at hrun
  rcases Work.runIn_bind_error hrun with hrun | ⟨composed, w₁, -, hrun⟩
  · rcases writeGenerated_eq_error hrun with hfailed | ⟨content, hwrite⟩
    · exact hfailed
    · obtain ⟨fault, hfault⟩ := atomicWrite_fails file.path content w _ w' hwrite
      simp at hfault
  · exact absurd (Prod.mk.inj hrun).1 (by simp)

/-- The places of the given files, and that of the log file. -/
def WrittenAt (r : Request) (top : Place) (w : World) (files : List PlannedFile) (q : Place) :
    Prop :=
  (∃ f ∈ files, q = placeBelow r.modulePath top f.path) ∨ w.IsLog q

/-- What writing some files has come to when one of them is in conflict. -/
structure StoppedAt (r : Request) (top : Place) (w w' : World) (failure : Failure)
    (before : List PlannedFile) (file : PlannedFile) (after : List PlannedFile) : Prop where
  plan : AllPlannable w r.modulePath top (before ++ file :: after)
  reached : Reached (WrittenAt r top w before) w w'
  composed : ∀ f ∈ before, ∃ composed,
    composeOn w.disk f.path f.content r.isAppend = .ok composed ∧
      w'.disk.read f.path = .ok (bytesOf composed.content)
  refused : composeOn w.disk file.path file.content r.isAppend = .error failure

variable {top : Place} {before after : List PlannedFile} {file : PlannedFile}

/-- Nothing has been written where the other files of the plan are to go. -/
theorem not_writtenAt (hplan : AllPlannable w r.modulePath top (before ++ file :: after)) :
    ∀ f ∈ file :: after, ¬ WrittenAt r top w before (placeBelow r.modulePath top f.path) := by
  obtain ⟨-, -, hcross⟩ := List.pairwise_append.mp hplan.distinct
  rintro f hf (⟨g, hg, hsame⟩ | hlog)
  · exact hcross g hg f hf hsame.symm
  · exact hplan.unlogged f (List.mem_append_right before hf) hlog

/-- **Writing some files of a plan**, between log records. -/
theorem writtenAt_runIn {files : List PlannedFile} {written : List WrittenFile} {w₁ w₂ : World}
    (hdry : r.isDryRun = false) (htree : IsTree w.disk)
    (hplan : AllPlannable w r.modulePath top files) (hlog₁ : World.Logged w w₁)
    (hrun : (files.mapM (writePlanned r)).runIn w₁ = (.ok written, w₂))
    (hlog₂ : World.Logged w₂ w') :
    Reached (WrittenAt r top w files) w w' ∧
      files.mapM (writtenOn w.disk r) = .ok written ∧
      ∀ f ∈ files, ∃ composed, composeOn w.disk f.path f.content r.isAppend = .ok composed ∧
        w'.disk.read f.path = .ok (bytesOf composed.content) := by
  have h₁ : Reached w.IsLog w w₁ := .of_logged hlog₁
  obtain ⟨hreached, hwritten, hread⟩ := emit_runIn hdry hplan htree h₁ hplan.unlogged hrun
  have h₂ := h₁.union hreached
  refine ⟨(h₂.union (.of_logged hlog₂)).extend ?_ ?_, hwritten, fun f hf => ?_⟩
  · rintro q ((hq | hq | hq) | hq)
    · exact .inr hq
    · exact .inl hq
    · exact .inr (h₁.isLog q hq)
    · exact .inr (h₂.isLog q hq)
  · rintro q (hq | hq) hq'
    · exact (hq' (.inl (.inr (.inl hq)))).elim
    · exact (hq' (.inl (.inl hq))).elim
  · -- the records at the end go elsewhere
    obtain ⟨composed, hcomposed, hbytes⟩ := hread f hf
    refine ⟨composed, hcomposed, ?_⟩
    rw [hlog₂.read_eq, hbytes]
    intro q hq hlogged
    rw [((hplan.each f hf).grown h₂.grown).place_eq (by simp) hq] at hlogged
    exact hplan.unlogged f hf (h₂.isLog _ hlogged)

/-- **Writing the files of a plan until one is in conflict.** -/
theorem stoppedAt_of_runIn (hdry : r.isDryRun = false)
    (htree : IsTree w.disk)
    (hplan : AllPlannable w r.modulePath top (before ++ file :: after)) {w₁ w₂ : World}
    (hlog₁ : World.Logged w w₁) {written : List WrittenFile}
    (hbefore : (before.mapM (writePlanned r)).runIn w₁ = (.ok written, w₂)) {path : String}
    {reason : ConflictReason}
    (hfile : (writePlanned r file).runIn w₂ = (.error (.conflict path reason), w')) :
    StoppedAt r top w w' (.conflict path reason) before file after := by
  have hplanBefore : AllPlannable w r.modulePath top before :=
    ⟨fun f hf => hplan.each f (List.mem_append_left _ hf),
      fun f hf => hplan.unlogged f (List.mem_append_left _ hf),
      (List.pairwise_append.mp hplan.distinct).1⟩
  obtain ⟨h₂, -, -⟩ := writtenAt_runIn hdry htree hplanBefore hlog₁ hbefore (.refl w₂)
  -- the conflict itself, told by the first disk
  obtain ⟨hcompose, hlog'⟩ := writePlanned_conflict hfile
  have hrefused : composeOn w.disk file.path file.content r.isAppend =
      .error (.conflict path reason) := by
    have hplanFile : Plannable w.disk r.modulePath top file.path := hplan.each file (by simp)
    rw [← hcompose]
    rw [hplanFile.path] at hcompose ⊢
    exact composeOn_back hplanFile.below htree h₂.grown (not_writtenAt hplan file (by simp))
      (by simp [hcompose])
  obtain ⟨hreached, -, hread⟩ := writtenAt_runIn hdry htree hplanBefore hlog₁ hbefore hlog'
  exact ⟨hplan, hreached, hread, hrefused⟩

theorem StoppedAt.conflictAt (htree : IsTree w.disk)
    (h : StoppedAt r top w w' failure before file after) :
    ConflictAt r w w' failure before file after := by
  have hfresh := not_writtenAt h.plan
  constructor
  · intro f hf
    rw [compose_runIn]
    exact h.composed f hf
  · rw [compose_runIn]
    exact h.refused
  · intro f hf bytes
    have hplanFile := h.plan.each f (List.mem_append_right before hf)
    exact ⟨hplanFile.read_back htree h.reached.grown (hfresh f hf),
      hplanFile.read_grown h.reached.grown (hfresh f hf)⟩
  · intro q hq hlogged
    refine h.reached.grown.bytesAt_eq ?_
    rintro (⟨f, hf, rfl⟩ | hlog)
    · -- a written file can be read, so its path leads to its place
      obtain ⟨composed, -, hbytes⟩ := h.composed f hf
      obtain ⟨-, mode, hentry⟩ := read_eq_ok_iff.mp hbytes
      obtain ⟨p, hp, -⟩ := entryAt_eq_ok_iff.mp hentry
      have hplanNow := (h.plan.each f (List.mem_append_left _ hf)).grown h.reached.grown
      exact hq f hf (hplanNow.place_eq (by simp) hp ▸ hp)
    · exact hlogged hlog

/-- **A conflict** comes after the files before it and leaves everything else. -/
theorem generate_conflict (hr : r.Valid) (hw : Undisturbed r w)
    (hdry : r.isDryRun = false) {path : String} {reason : ConflictReason}
    (hrun : (generate r).runIn w = (.error (.conflict path reason), w')) :
    ∃ collected before file after, gatherOn w.disk r = .ok collected ∧
      plannedFiles r collected = before ++ file :: after ∧
      ConflictAt r w w' (.conflict path reason) before file after := by
  rcases generate_eq_error (hw.logApart hr) hrun with
    ⟨hgather, -⟩ | ⟨collected, w₁, hgather, hlog₁, hwrite⟩
  · exact (gatherOn_ne_conflict path reason hgather).elim
  -- the files before the conflict have gone through
  obtain ⟨before, file, after, written, w₂, hfiles, hbefore, hfile⟩ := Work.mapM_runIn_error hwrite
  obtain ⟨hthere, hcollect⟩ := gatherOn_eq_ok hgather
  obtain ⟨top, htop⟩ := hw.enclosed hthere
  have hplan := plannedFiles_plannable htop hr (map_fst_collectAllOn hcollect)
  rw [hfiles] at hplan
  exact ⟨collected, before, file, after, hgather, hfiles,
    (stoppedAt_of_runIn hdry hw.tree hplan hlog₁ hbefore hfile).conflictAt hw.tree⟩

/-- **What a generation that fails leaves behind.** If the module's directory is
missing or a type file does not parse, nothing has changed, and the failure
names the first operation whose type file does not parse. If a file is in
conflict, the planned files before it hold what they were to hold on the first
disk, and every other file is what it was. -/
theorem generate_failure_leaves (hr : r.Valid) (hw : Undisturbed r w)
    (hrun : (generate r).runIn w = (.error failure, w')) :
    (IsReadingFailure failure → ∀ q, ¬ w.IsLog q → w'.disk.look q = w.disk.look q) ∧
      (∀ m op cause, failure = .generation m op cause →
        m = r.moduleName ∧ ∃ before after, r.operations = before ++ op :: after ∧
          Malformed w.disk r op cause ∧
          ∀ o ∈ before, ∀ cause', ¬ Malformed w.disk r o cause') ∧
      (r.isAppend = true → r.isDryRun = false →
        ∀ path reason, failure = .conflict path reason →
          ∃ collected before file after, ((collect r).runIn w).1 = .ok collected ∧
            plannedFiles r collected = before ++ file :: after ∧
            ConflictAt r w w' failure before file after) := by
  -- the first two parts are about the first phase, the last one about the second
  refine ⟨fun hreading => ?_, ?_, ?_⟩
  · exact (generate_reading_failed hr hw hrun hreading).2.other
  · rintro m op cause rfl
    exact gatherOn_generation (generate_reading_failed hr hw hrun (.inr ⟨m, op, cause, rfl⟩)).1
  · rintro - hdry path reason rfl
    obtain ⟨collected, before, file, after, hgather, hfiles, hat⟩ :=
      generate_conflict hr hw hdry hrun
    obtain ⟨w₁, hcollect, -⟩ := collect_runIn (hw.logApart hr) (.refl w)
    exact ⟨collected, before, file, after, by rw [hcollect, hgather], hfiles, hat⟩

end Runs

/-- One operation of a module below the working directory. -/
private def brokenRequest : Request :=
  ⟨"todo", ⟨.here, ["m"]⟩, ⟨.custom, ["go"]⟩, true, .express, false⟩

/-- Its type file parses; its controller is there already and is no text. -/
private def brokenWorld : World :=
  let directory := Entry.directory newDirectoryMode
  .ofDisk <| Disk.empty ["w"]
    |>.put ["m", "w"] directory
    |>.put ["types", "m", "w"] directory
    |>.put ["go.todo.ts", "types", "m", "w"]
      (.file (bytesOf "export type typePayload = {a: string}") newFileMode)
    |>.put ["controllers", "m", "w"] directory
    |>.put ["go.todo.ts", "controllers", "m", "w"] (.file [0xFF] newFileMode)

private theorem valid_brokenRequest : brokenRequest.Valid where
  name := by decide +kernel
  apiType := by
    refine ⟨by decide, ?_⟩
    simp [operationsRefusal?, Check.repeated, brokenRequest]
    decide

private theorem undisturbed_brokenWorld : Undisturbed brokenRequest brokenWorld where
  tree := isTree_of_entries (by decide +kernel)
  noLinks := fun top _ => noLinksBelow_of_entries (by decide +kernel)
  unlogged := by
    intro top _ q _ hlog
    simp [World.IsLog, brokenWorld, World.ofDisk] at hlog

private def isBrokenConflict : Except Failure (List WrittenFile) → Bool
  | .error (.conflict path _) => path = "m/controllers/go.todo.ts"
  | _ => false

/-- The conflict comes up where the controller is, and everything but what was
written before it is as it was. -/
theorem conflict_keeps_controller :
    ∃ reason w' collected before file after,
      (generate brokenRequest).runIn brokenWorld =
          (.error (.conflict "m/controllers/go.todo.ts" reason), w') ∧
        ((collect brokenRequest).runIn brokenWorld).1 = .ok collected ∧
        plannedFiles brokenRequest collected = before ++ file :: after ∧
        ConflictAt brokenRequest brokenWorld w' (.conflict "m/controllers/go.todo.ts" reason)
          before file after := by
  have hconflict : isBrokenConflict ((generate brokenRequest).runIn brokenWorld).1 = true := by
    decide +kernel
  cases hrun : (generate brokenRequest).runIn brokenWorld with
  | mk answer w' =>
    rw [hrun] at hconflict
    match answer, hconflict with
    | .error (.conflict path reason), hpath =>
      obtain rfl : path = "m/controllers/go.todo.ts" := of_decide_eq_true hpath
      obtain ⟨collected, before, file, after, hat⟩ :=
        (generate_failure_leaves valid_brokenRequest undisturbed_brokenWorld hrun).2.2 rfl rfl _
          reason rfl
      exact ⟨reason, w', collected, before, file, after, rfl, hat⟩

end Stencil.Module
