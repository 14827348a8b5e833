import Stencil.Proofs.Module.Batch
import Stencil.Proofs.Module.Marked
import Stencil.Proofs.Module.Moved

/-!
# Stencil — what a batch reports of the files it changes

A module that is generated lists every file, and it has moved exactly those that
it lists as changed, in that order. So every file that a batch changes is listed
with its module, with one exception: a module that fails lists nothing, also if
it fails when some of its files have been written already.

Main results:

* `generate_moves_ok`, `generate_moves_error` — the moves of a module;
* `generateAll_accounts` — a batch changes no file but by moves;
* `generateAll_reports` — what is reported of them.
-/

namespace Stencil.Module

open Stencil.Disk

/-! ## Listed files -/

/-- The move of a file that is reported: it has come to its path with its content. -/
structure Brings (m : Move) (f : WrittenFile) : Prop where
  path : m.path = f.path
  bytes : m.bytes = bytesOf f.content

/-- The files that are listed as changed, in order, are the ones that were moved. -/
def Lists (files : List WrittenFile) (ms : List Move) : Prop :=
  List.Forall₂ (fun f m => Brings m f) (files.filter (·.action.isChange)) ms

private theorem exists_of_forall₂_left {α β : Type} {R : α → β → Prop} {as : List α} {bs : List β}
    (h : List.Forall₂ R as bs) {a : α} (ha : a ∈ as) : ∃ b ∈ bs, R a b := by
  induction h with
  | nil => simp at ha
  | @cons a' b as bs hab _ ih =>
    rcases List.mem_cons.mp ha with rfl | ha
    · exact ⟨b, by simp, hab⟩
    · obtain ⟨b', hb', hab'⟩ := ih ha
      exact ⟨b', List.mem_cons_of_mem b hb', hab'⟩

namespace Lists

variable {files files' : List WrittenFile} {ms ms' : List Move}

theorem append (h : Lists files ms) (h' : Lists files' ms') :
    Lists (files ++ files') (ms ++ ms') := by
  rw [Lists, List.filter_append]
  exact List.rel_append h h'

theorem exists_move (h : Lists files ms) {f : WrittenFile} (hf : f ∈ files)
    (hchange : f.action.isChange = true) : ∃ m ∈ ms, Brings m f := by
  obtain ⟨m, hm, hof⟩ := exists_of_forall₂_left h (List.mem_filter.mpr ⟨hf, hchange⟩)
  exact ⟨m, hm, hof⟩

theorem exists_file (h : Lists files ms) {m : Move} (hm : m ∈ ms) :
    ∃ f ∈ files, f.action.isChange = true ∧ Brings m f := by
  obtain ⟨f, hf, hof⟩ := exists_of_forall₂_left h.flip hm
  obtain ⟨hmem, hchange⟩ := List.mem_filter.mp hf
  exact ⟨f, hmem, hchange, hof⟩

/-- Files that were written one after the other. -/
theorem of_inTurn {planned : List PlannedFile}
    (h : Work.InTurn (fun _ f ms => Lists [f] ms) planned files ms) : Lists files ms := by
  induction h with
  | nil => exact .nil
  | cons first _ ih => exact first.append ih

end Lists

/-! ## The files of a module -/

section Module

variable {r : Request} {w w' : World}

theorem endsInName_of_mem_plannedFiles (hr : r.Valid) {collected : Collected}
    (hcollected : collected.map (·.1) = r.operations) {f : PlannedFile}
    (hf : f ∈ plannedFiles r collected) : EndsInName f.path := by
  obtain ⟨names, last, hpath, hnames, -⟩ := exists_names_of_mem_plannedFiles hr hcollected hf
  have hlast : EndsInName ((pathBelow r.modulePath names).child last) :=
    endsInName_child (hnames last (by simp))
  rwa [hpath, pathBelow, ← List.append_assoc]

/-- **One planned file** is moved if it is reported as changed. -/
theorem writePlanned_moves (hdry : r.isDryRun = false) {f : PlannedFile}
    (hname : EndsInName f.path) (w : World) :
    MovesFor (fun x ms => (∃ composed, x = f.report composed) ∧ Lists [x] ms)
      (writePlanned r f) w := by
  rw [writePlanned, hdry]
  refine (writeGenerated_moves hname f.content r.isAppend w).before fun composed w₁ =>
    ⟨f.report composed, w₁, rfl, isTrace_still.refl w₁, fun ms hms => ⟨⟨composed, rfl⟩, ?_⟩⟩
  rw [MovedAs] at hms
  split at hms
  · rename_i hchange
    obtain ⟨p, rfl⟩ := hms
    have hfilter : [f.report composed].filter (·.action.isChange) = [f.report composed] := by
      simp [PlannedFile.report, hchange]
    rw [Lists, hfilter]
    exact .cons ⟨rfl, rfl⟩ .nil
  · rename_i hchange
    have hfilter : [f.report composed].filter (·.action.isChange) = [] := by
      simp [PlannedFile.report, hchange]
    rw [hms, Lists, hfilter]
    exact .nil

variable {files : List PlannedFile} {failure : Failure}

/-- **Files that are written**: the moves are those of the files that are reported. -/
theorem emit_moves_ok (hdry : r.isDryRun = false) (hnames : ∀ f ∈ files, EndsInName f.path)
    {written : List WrittenFile}
    (hrun : (files.mapM (writePlanned r)).runIn w = (.ok written, w')) :
    List.Forall₂ (fun f x => ∃ composed, x = PlannedFile.report f composed) files written ∧
      Lists written ((files.mapM (writePlanned r)).moves w) := by
  constructor
  · refine Work.Gives.mapM (fun f hf v x v' hrun => ?_) w written w' hrun
    exact ((writePlanned_moves hdry (hnames f hf) v).of_ok hrun).1
  · refine .of_inTurn (Work.mapM_inTurn (fun f hf v x v' hrun => ?_) hrun)
    exact ((writePlanned_moves hdry (hnames f hf) v).of_ok hrun).2

/-- A move for a file that a module has written before it failed at a later one. -/
def WrittenBefore (r : Request) (failure : Failure) (m : Move) : Prop :=
  ∃ collected before file after, (∃ v, ((collect r).runIn v).1 = .ok collected) ∧
    plannedFiles r collected = before ++ file :: after ∧
    (∃ v, ((writePlanned r file).runIn v).1 = .error failure) ∧
    ∃ f ∈ before, ∃ composed : Composed, composed.action.isChange = true ∧
      Brings m (f.report composed)

/-- **Files of which one cannot be written**: the moves are for files before it. -/
theorem emit_moves_error (hr : r.Valid) (hdry : r.isDryRun = false) {collected : Collected}
    {v v' : World} (hcollect : (collect r).runIn v = (.ok collected, v'))
    (hrun : ((plannedFiles r collected).mapM (writePlanned r)).runIn w = (.error failure, w')) :
    ∀ m ∈ ((plannedFiles r collected).mapM (writePlanned r)).moves w,
      WrittenBefore r failure m := by
  have hnames := fun f => endsInName_of_mem_plannedFiles hr
    (collect_gives r v collected v' hcollect).1 (f := f)
  obtain ⟨before, file, after, written, w₁, hfiles, hbefore, hfile⟩ := Work.mapM_runIn_error hrun
  rw [hfiles] at hnames ⊢
  intro m hm
  rw [Work.moves_mapM_of_error hbefore hfile,
    (writePlanned_moves hdry (hnames file (by simp)) w₁).of_error hfile, List.append_nil] at hm
  obtain ⟨hreports, hlists⟩ := emit_moves_ok hdry (fun f hf => hnames f (by simp [hf])) hbefore
  obtain ⟨x, hx, hchange, hbrings⟩ := hlists.exists_file hm
  obtain ⟨f, hf, composed, rfl⟩ := exists_of_forall₂_left hreports.flip hx
  exact ⟨collected, before, file, after, ⟨v, by rw [hcollect]⟩, hfiles, ⟨w₁, by rw [hfile]⟩, f, hf,
    composed, hchange, hbrings⟩

/-! ## One module -/

/-- **A module that is generated** has moved the files that it lists as changed, in
order. -/
theorem generate_moves_ok (hr : r.Valid) (hdry : r.isDryRun = false) {written : List WrittenFile}
    (hrun : (generate r).runIn w = (.ok written, w')) : Lists written ((generate r).moves w) := by
  obtain ⟨_, w₁, hlog, hrun⟩ := Work.runIn_bind_ok hrun
  obtain ⟨collected, w₂, hcollect, hrun⟩ := Work.runIn_bind_ok hrun
  obtain ⟨written', w₃, hemit, hrun⟩ := Work.runIn_bind_ok hrun
  obtain rfl := Except.ok.inj (Prod.mk.inj hrun).1
  have hcollected := (collect_gives r w₁ collected w₂ hcollect).1
  -- only the second phase moves files
  rw [generate, moves_after_still (log_still _ _ _) hlog,
    moves_after_still (collect_still r) hcollect, Work.moves_bind_of_moveless fun _ _ => rfl]
  exact (emit_moves_ok hdry (fun f => endsInName_of_mem_plannedFiles hr hcollected) hemit).2

/-- **A module that fails** has moved files before the one at which it failed only. -/
theorem generate_moves_error (hr : r.Valid) (hdry : r.isDryRun = false)
    (hrun : (generate r).runIn w = (.error failure, w')) :
    ∀ m ∈ (generate r).moves w, WrittenBefore r failure m := by
  rcases Work.runIn_bind_error hrun with hlog | ⟨_, w₁, hlog, hrun⟩
  · simp at hlog
  rw [generate, moves_after_still (log_still _ _ _) hlog]
  rcases Work.runIn_bind_error hrun with hcollect | ⟨collected, w₂, hcollect, hrun⟩
  · -- the first phase moves nothing
    rw [Work.moves_bind_of_error hcollect, (collect_still r w₁).moves]
    simp
  · rw [moves_after_still (collect_still r) hcollect, Work.moves_bind_of_moveless fun _ _ => rfl]
    rcases Work.runIn_bind_error hrun with hemit | ⟨written, w₃, -, hrun⟩
    · exact emit_moves_error hr hdry hcollect hemit
    · exact absurd (Prod.mk.inj hrun).1 (by simp)

/-- **Generation** changes no file but by moves. -/
theorem generate_accounts (hr : r.Valid) (hdry : r.isDryRun = false) :
    Work.Traces Accounts (generate r) := by
  have hstill : ∀ {α : Type} {work : Work α}, Work.Traces Still work →
      Work.Traces Accounts work := fun h => h.mono fun _ _ _ => Still.accountsFor
  refine .bind isTrace_accounts (hstill (log_still _ _ _)) fun _ => ?_
  refine .bind_gives isTrace_accounts (hstill (collect_still r)) (collect_gives r)
    fun collected hcollected => ?_
  refine .bind isTrace_accounts (.mapM isTrace_accounts fun f hf w => ?_) fun written => ?_
  · have hname := endsInName_of_mem_plannedFiles hr hcollected.1 hf
    exact (writePlanned_moves hdry hname w).accounts
  · exact .bind isTrace_accounts (hstill (log_still _ _ _)) fun _ => .pure isTrace_accounts written

/-- What is recorded of a module, with the files that it has moved: all that it
lists as changed, or none of those that it had written when it failed. -/
inductive Reported (r : Request) : Outcome → List Move → Prop
  | generated {files ms} (h : Lists files ms) :
      Reported r ⟨r.moduleName, r.modulePath, files, none⟩ ms
  | failed {failure ms} (h : ∀ m ∈ ms, WrittenBefore r failure m) :
      Reported r ⟨r.moduleName, r.modulePath, [], some failure⟩ ms

theorem generateModule_moves_eq (r : Request) (w : World) :
    (generateModule r).moves w = (generate r).moves w := by
  rw [generateModule, Work.moves_bind_of_moveless, Work.moves_outcome]
  intro result w₁
  cases result with
  | ok files => rfl
  | error failure =>
    dsimp only
    split <;> rfl

/-- **What is recorded of a module** tells what it has moved. -/
theorem generateModule_reported (hr : r.Valid) (hdry : r.isDryRun = false) {o : Outcome}
    (hrun : (generateModule r).runIn w = (.ok o, w')) :
    Reported r o ((generateModule r).moves w) := by
  rw [generateModule_moves_eq]
  obtain ⟨w₁, hmodule, -⟩ := generateModule_runIn r w
  obtain ⟨houtcome, -⟩ := Prod.mk.inj (hmodule.symm.trans hrun)
  rcases hgenerate : (generate r).runIn w with ⟨result, w₂⟩
  rw [hgenerate] at houtcome
  cases result with
  | ok files =>
    obtain rfl := Except.ok.inj houtcome
    exact .generated (generate_moves_ok hr hdry hgenerate)
  | error failure =>
    rw [outcomeOf] at houtcome
    split at houtcome
    · obtain rfl := Except.ok.inj houtcome
      exact .failed (generate_moves_error hr hdry hgenerate)
    · simp at houtcome

theorem generateModule_accounts (hr : r.Valid) (hdry : r.isDryRun = false) :
    Work.Traces Accounts (generateModule r) := by
  refine .bind isTrace_accounts (generate_accounts hr hdry).outcome fun result => ?_
  cases result with
  | ok files => exact .pure isTrace_accounts _
  | error failure =>
    dsimp only
    split
    · exact .bind isTrace_accounts ((log_still _ _ _).mono fun _ _ _ => Still.accountsFor)
        fun _ => .pure isTrace_accounts _
    · exact .throw isTrace_accounts failure

end Module

/-! ## Batches -/

section Batches

variable {requests : List Request} {jobs : Int} {w w' : World} {result : BatchResult}

/-- **A batch** changes no file but by moves, whatever it comes to. -/
theorem generateAll_accounts (hvalid : ∀ r ∈ requests, r.Valid)
    (hdry : ∀ r ∈ requests, r.isDryRun = false) :
    Work.Traces Accounts (generateAll requests jobs) := by
  have heach := fun r (hr : r ∈ requests) => generateModule_accounts (hvalid r hr) (hdry r hr)
  rw [generateAll]
  split
  · exact .bind isTrace_accounts (.mapM isTrace_accounts heach) fun _ => .pure isTrace_accounts _
  · refine .bind isTrace_accounts ?_ fun _ => .pure isTrace_accounts _
    exact .bind isTrace_accounts (.mapM isTrace_accounts fun r hr => (heach r hr).outcome)
      fun _ => .ofExcept isTrace_accounts _ _

/-- Outcomes without a failure among them are all there. -/
theorem inTurn_firstFailure {α β : Type} {R : α → β → List Move → Prop} {as : List α}
    {results : List (Except Failure β)} {bs : List β} {ms : List Move}
    (h : Work.InTurn (fun a result ms => ∀ b, result = .ok b → R a b ms) as results ms)
    (hall : firstFailure results = .ok bs) : Work.InTurn R as bs ms := by
  induction h generalizing bs with
  | nil =>
    obtain rfl := Except.ok.inj hall
    exact .nil
  | @cons a result ms as results ms' first _ ih =>
    cases result with
    | error failure => simp [firstFailure] at hall
    | ok b =>
      cases hrest : firstFailure results with
      | error failure => simp [firstFailure, hrest, Except.map] at hall
      | ok rest =>
        obtain rfl : b :: rest = bs := by
          rw [firstFailure, hrest] at hall
          exact Except.ok.inj hall
        exact .cons (first b rfl) (ih hrest)

/-- The outcomes of a batch tell what its modules have moved, one after the other. -/
theorem generateAll_inTurn (hvalid : ∀ r ∈ requests, r.Valid)
    (hdry : ∀ r ∈ requests, r.isDryRun = false)
    (hrun : (generateAll requests jobs).runIn w = (.ok result, w')) :
    Work.InTurn Reported requests result.modules ((generateAll requests jobs).moves w) := by
  have heach := fun r (hr : r ∈ requests) (v : World) o v' (hrun : (generateModule r).runIn v =
    (.ok o, v')) => generateModule_reported (hvalid r hr) (hdry r hr) hrun
  rw [generateAll] at hrun ⊢
  split at hrun
  · rename_i hturn
    rw [if_pos hturn, Work.moves_bind_of_moveless fun _ _ => rfl]
    obtain ⟨outcomes, w₁, hmodules, hresult⟩ := Work.runIn_bind_ok hrun
    obtain rfl := Except.ok.inj (Prod.mk.inj hresult).1
    exact Work.mapM_inTurn heach hmodules
  · -- the outcomes are kept, and looked through when all modules are done
    rename_i htogether
    rw [if_neg htogether, Work.moves_bind_of_moveless fun _ _ => rfl, generateTogether,
      Work.moves_bind_of_moveless fun _ _ => Work.moves_ofExcept _ _ _]
    obtain ⟨outcomes, w₁, hmodules, hresult⟩ := Work.runIn_bind_ok hrun
    obtain rfl := Except.ok.inj (Prod.mk.inj hresult).1
    obtain ⟨results, w₂, hmodules, hall⟩ := Work.runIn_bind_ok hmodules
    refine inTurn_firstFailure (Work.mapM_inTurn (fun r hr v kept v' hkept o hok => ?_) hmodules)
      (Work.runIn_ofExcept_eq_ok hall).1
    rw [Work.runIn_outcome, hok] at hkept
    rw [Work.moves_outcome]
    exact heach r hr v o _ (Prod.ext (Except.ok.inj (Prod.mk.inj hkept).1) rfl)

/-- **Every file that a batch changes is reported** by a module that is generated, or
a module has written it before it failed; and every file that is reported as changed has
been written. -/
theorem generateAll_reports (hvalid : ∀ r ∈ requests, r.Valid)
    (hdry : ∀ r ∈ requests, r.isDryRun = false)
    (hrun : (generateAll requests jobs).runIn w = (.ok result, w')) :
    (∀ q, w'.disk.bytesAt q ≠ w.disk.bytesAt q → w.logPlace? ≠ some q →
      ∃ m ∈ (generateAll requests jobs).moves w, m.place = q ∧
        ((∃ o ∈ result.modules, ∃ f ∈ o.files, f.action.isChange = true ∧ Brings m f) ∨
          ∃ r o failure, (r, o) ∈ requests.zip result.modules ∧ o.files = [] ∧
            o.failure? = some failure ∧ WrittenBefore r failure m)) ∧
      ∀ o ∈ result.modules, ∀ f ∈ o.files, f.action.isChange = true →
        ∃ m ∈ (generateAll requests jobs).moves w, Brings m f := by
  have hturn := generateAll_inTurn hvalid hdry hrun
  constructor
  · intro q hchanged hlog
    obtain ⟨m, hm, hplace⟩ :=
      (((generateAll_accounts hvalid hdry).of_runIn hrun).bytes q hchanged).resolve_left hlog
    refine ⟨m, hm, hplace, ?_⟩
    obtain ⟨r, o, hmem, ms, hreported, hm⟩ := hturn.exists_of_move hm
    cases hreported with
    | generated hlists =>
      obtain ⟨f, hf, hchange, hbrings⟩ := hlists.exists_file hm
      exact .inl ⟨_, (List.of_mem_zip hmem).2, f, hf, hchange, hbrings⟩
    | failed hbefore => exact .inr ⟨r, _, _, hmem, rfl, rfl, hbefore m hm⟩
  · intro o ho f hf hchange
    obtain ⟨r, ms, hreported, hsub⟩ := hturn.exists_of_value ho
    cases hreported with
    | generated hlists =>
      obtain ⟨m, hm, hbrings⟩ := hlists.exists_move hf hchange
      exact ⟨m, hsub hm, hbrings⟩
    | failed hbefore => simp at hf

end Batches

/-- A module in append mode, and another one. -/
private def appendPair : List Request :=
  [{ todoRequest with isAppend := true }, notesRequest]

/-- Both have a type file, and the first one a controller that is no text. -/
private def controlledWorld : World :=
  let declared := pairWorld (bytesOf "export type typePayload = \x7bid: string\x7d")
  .ofDisk <| declared.disk
    |>.put ["controllers", "a", "w"] (.directory newDirectoryMode)
    |>.put ["get.todo.ts", "controllers", "a", "w"] (.file [0xFF] newFileMode)

private theorem valid_appendPair : ∀ r ∈ appendPair, r.Valid := by
  have hoperations : operationsRefusal? ["get"] = none := by
    simp [operationsRefusal?, Check.repeated]
    decide
  intro r hr
  rcases List.mem_cons.mp hr with rfl | hr
  · exact ⟨by decide +kernel, by decide, hoperations⟩
  · rw [List.mem_singleton.mp hr]
    exact ⟨by decide +kernel, by decide, hoperations⟩

private def servicePath : Path := ⟨.here, ["a", "services", "get.todo.ts"]⟩

private def servicePlace : Place := ["get.todo.ts", "services", "a", "w"]

/-- Whether the first module has failed and the second one has not, and the service
of the first one has come but is not listed. -/
private def isUnlisted : Except Failure BatchResult × World → Bool
  | (.ok result, w') =>
    result.modules.map (fun o => (o.isOk, o.files.length)) = [(false, 0), (true, 4)] &&
      (w'.disk.bytesAt servicePlace).isSome &&
      result.modules.all fun o => o.files.all fun f => f.path ≠ servicePath
  | _ => false

private theorem exists_of_isUnlisted {answer : Except Failure BatchResult × World}
    (h : isUnlisted answer = true) :
    ∃ result w', answer = (.ok result, w') ∧
      result.modules.map (fun o => (o.isOk, o.files.length)) = [(false, 0), (true, 4)] ∧
      (w'.disk.bytesAt servicePlace).isSome = true ∧
      ∀ o ∈ result.modules, ∀ f ∈ o.files, f.path ≠ servicePath := by
  rw [isUnlisted.eq_def] at h
  split at h
  · rename_i result w'
    simp only [Bool.and_eq_true, decide_eq_true_eq, List.all_eq_true] at h
    exact ⟨result, w', rfl, h.1.1, h.1.2, h.2⟩
  · simp at h

/-- The service of a module that fails at its controller has been written and is not
listed. -/
theorem unlisted_service :
    ∃ result w', (generateAll appendPair 4).runIn controlledWorld = (.ok result, w') ∧
      result.modules.map (fun o => (o.isOk, o.files.length)) = [(false, 0), (true, 4)] ∧
      (∀ o ∈ result.modules, ∀ f ∈ o.files, f.path ≠ servicePath) ∧
      (∃ m ∈ (generateAll appendPair 4).moves controlledWorld, m.place = servicePlace ∧
        ((∃ o ∈ result.modules, ∃ f ∈ o.files, f.action.isChange = true ∧ Brings m f) ∨
          ∃ r o failure, (r, o) ∈ appendPair.zip result.modules ∧ o.files = [] ∧
            o.failure? = some failure ∧ WrittenBefore r failure m)) ∧
      ∀ o ∈ result.modules, ∀ f ∈ o.files, f.action.isChange = true →
        ∃ m ∈ (generateAll appendPair 4).moves controlledWorld, Brings m f := by
  have hunlisted : isUnlisted ((generateAll appendPair 4).runIn controlledWorld) = true := by
    decide +kernel
  obtain ⟨result, w', hrun, hmodules, hservice, hpaths⟩ := exists_of_isUnlisted hunlisted
  obtain ⟨hchanges, hlisted⟩ := generateAll_reports valid_appendPair (by decide) hrun
  have hnone : controlledWorld.disk.bytesAt servicePlace = none := by decide +kernel
  refine ⟨result, w', hrun, hmodules, hpaths, ?_, hlisted⟩
  refine hchanges servicePlace (fun h => ?_) (by simp [controlledWorld, World.ofDisk])
  simp [h, hnone] at hservice

end Stencil.Module
