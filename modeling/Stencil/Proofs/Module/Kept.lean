import Stencil.Proofs.Module.TypeFile

/-!
# Stencil — type files that are kept

Scaffolding a module keeps the type files that are there and creates the others, one
after the other. If it fails on the way, what there was is spared all the same. If it
succeeds, what is said of the files is what was due on the first disk: so a dry run says
it without writing, and to scaffold the module for a second time keeps every file.

A module path that turns back with a `..` from a directory that is missing leads nowhere
at first, and to files that were not seen once the directory has been made
(`scaffold_behind_missing`).

Main results:

* `scaffolded_of_mapM` — what scaffolding some operations has come to;
* `mapM_due` — what is due for them, if nothing is written;
* `scaffold_keeps` — all files are spared, and what is said of them is told beforehand.
-/

namespace Stencil.Module

open Stencil.Disk Stencil.Naming Stencil.Source Stencil.Text Stencil.Work

variable {r : Request} {operation : String} {isForced : Bool} {f : WrittenFile}
  {w w' : World}

/-! ## All operations -/

section Operations

variable {operations : List String} {files : List WrittenFile}

/-- What scaffolding some operations has come to, if it succeeded. -/
structure Scaffolded (r : Request) (isForced : Bool) (operations : List String)
    (files : List WrittenFile) (w w' : World) : Prop where
  each : List.Forall₂ (fun operation f => Due w.disk r isForced operation f ∧ Held w' f)
    operations files
  beside : ∀ operation ∈ r.operations, operation ∉ operations →
    Unlogged w (typeFile r operation) → Beside (typeFile r operation) w w'

/-- The files of the operations after the first are due on the first disk too, and what
is said of the first file stays so. -/
theorem Settled.cons {w₁ : World} (hoperation : operation ∈ r.operations)
    (hsub : operations ⊆ r.operations) (hnodup : (operation :: operations).Nodup)
    (hunlogged : ∀ operation' ∈ operations, Unlogged w (typeFile r operation'))
    (h : Settled r isForced operation f w w₁)
    (hrest : Scaffolded r isForced operations files w₁ w') :
    Scaffolded r isForced (operation :: operations) (f :: files) w w' := by
  obtain ⟨hnotMem, -⟩ := List.nodup_cons.mp hnodup
  have hback : ∀ operation' ∈ operations, Beside (typeFile r operation') w w₁ := by
    intro operation' hmem
    exact h.beside operation' (hsub hmem) (ne_of_mem_of_not_mem hmem hnotMem)
      (hunlogged operation' hmem)
  have hfirst : Held w' f := by
    refine h.held.beside ?_
    have hunlogged₁ := h.held.unlogged
    rw [h.due.path_eq] at hunlogged₁ ⊢
    exact hrest.beside operation hoperation hnotMem hunlogged₁
  refine ⟨.cons ⟨h.due, hfirst⟩ ?_, ?_⟩
  · -- what is due for the others is taken back over the first write
    have heach := (List.forall₂_and_left _ _).mpr ⟨hback, hrest.each⟩
    exact heach.imp fun operation' f' ⟨hbeside, hdue, hheld⟩ => ⟨hdue.back hbeside, hheld⟩
  · intro operation' hoperation' hne hunlogged'
    obtain ⟨hne, hnotMem'⟩ := not_or.mp (mt List.mem_cons.mpr hne)
    have hbeside := h.beside operation' hoperation' hne hunlogged'
    exact hbeside.trans (hrest.beside operation' hoperation' hnotMem' hbeside.unlogged)

/-- **Scaffolding some operations**, whatever is refused: without force all that there was
is spared, and if it succeeds every file is as it is said. -/
theorem scaffolded_of_mapM {result : Except Failure (List WrittenFile)} (hr : r.Valid)
    (hreal : r.isDryRun = false) (hsub : operations ⊆ r.operations) (hnodup : operations.Nodup)
    (hready : Ready (typesPath r) w)
    (hunlogged : ∀ operation ∈ operations, Unlogged w (typeFile r operation))
    (h : (operations.mapM (scaffoldOperation r isForced)).MayEnd w result w') :
    (isForced = false → Spares w w') ∧
      ∀ files, result = .ok files → Scaffolded r isForced operations files w w' := by
  -- on the operations: after the first, the directory of the others is ready still
  induction operations generalizing w result with
  | nil =>
    obtain ⟨rfl, rfl⟩ := mayEnd_pure.mp h
    refine ⟨fun _ => .of_logged (.refl w'), fun files hfiles => ?_⟩
    obtain rfl := Except.ok.inj hfiles
    exact ⟨.nil, fun operation _ _ hunlogged' => .of_logged hunlogged' (.refl w')⟩
  | cons operation operations ih =>
    obtain ⟨hoperation, hsub⟩ := List.cons_subset.mp hsub
    rcases mayEnd_mapM_cons.mp h with ⟨f, w₁, rest, hfirst, hrest, rfl⟩ | ⟨failure, hfirst, rfl⟩
    · have hends := scaffoldOperation_ends hr hoperation hreal hfirst
      have hsettled := hends.settled hr hoperation hready (hunlogged operation (by simp))
      obtain ⟨hnotMem, hnodupRest⟩ := List.nodup_cons.mp hnodup
      have hunloggedRest : ∀ operation' ∈ operations, Unlogged w (typeFile r operation') :=
        fun operation' hmem => hunlogged operation' (by simp [hmem])
      have hunlogged₁ : ∀ operation' ∈ operations, Unlogged w₁ (typeFile r operation') :=
        fun operation' hmem => (hsettled.beside operation' (hsub hmem)
          (ne_of_mem_of_not_mem hmem hnotMem) (hunloggedRest operation' hmem)).unlogged
      obtain ⟨hspares, hscaffolded⟩ := ih hsub hnodupRest hsettled.ready hunlogged₁ hrest
      refine ⟨fun hforce => ?_, fun files hfiles => ?_⟩
      · subst hforce
        exact (hends.spares hr hoperation hready).trans hsettled.isLog (hspares rfl)
      · -- the others have succeeded as well
        cases rest with
        | error failure => simp [Except.map] at hfiles
        | ok others =>
          obtain rfl := Except.ok.inj hfiles
          exact hsettled.cons hoperation hsub hnodup hunloggedRest (hscaffolded others rfl)
    · refine ⟨fun hforce => ?_, by simp⟩
      subst hforce
      exact (scaffoldOperation_ends hr hoperation hreal hfirst).spares hr hoperation hready

/-- **What is due for some operations**, one after the other. -/
theorem mapM_due (hdue : List.Forall₂ (Due w.disk r isForced) operations files)
    (hunlogged : ∀ operation ∈ operations, Unlogged w (typeFile r operation))
    (hquiet : r.isDryRun = true ∨ ∀ f ∈ files, f.action = .skipped)
    (hlogged : World.Logged w w') :
    ∃ w'', (operations.mapM (scaffoldOperation r isForced)).runIn w' = (.ok files, w'') ∧
      World.Logged w w'' := by
  -- from one operation to the next only the log grows
  induction hdue generalizing w' with
  | nil => exact ⟨w', rfl, hlogged⟩
  | @cons operation f operations files hfirst _ ih =>
    obtain ⟨w₁, hrun, hlogged₁⟩ := scaffoldOperation_due hfirst (hunlogged operation (by simp))
      (hquiet.imp_right fun hskipped => hskipped f (by simp)) hlogged
    obtain ⟨w₂, hrest, hlogged₂⟩ := ih
      (fun operation' hmem => hunlogged operation' (by simp [hmem]))
      (hquiet.imp_right fun hskipped f' hmem => hskipped f' (by simp [hmem])) hlogged₁
    refine ⟨w₂, ?_, hlogged₂⟩
    rw [List.mapM_cons, runIn_bind_of_ok hrun, runIn_bind_of_ok hrest]
    rfl

end Operations

/-! ## Scaffolding a module -/

/-- **Scaffolding protects type files**, on a disk without links, if the module's path
turns back only behind what is there. Whatever is refused, without force nothing that was
there changes. If it succeeds there is one file for each operation, which is skipped if it
existed and created with its stub otherwise; and to scaffold again changes nothing and
skips all of them. A dry run changes nothing, and it has the answer of every run that
succeeds. -/
theorem scaffold_keeps (hr : r.Valid) (hreal : r.isDryRun = false) (htree : IsTree w.disk)
    (hlinks : NoLinksBelow w.disk []) (hnormal : r.modulePath.IsNormal)
    (hgrounded : w.disk.Grounded r.modulePath)
    (hunlogged : ∀ operation ∈ r.operations, Unlogged w (typeFile r operation)) :
    (∀ result w', (scaffold r false).MayEnd w result w' →
      ∀ q, (w.disk.look q).isSome → ¬ w.IsLog q → w'.disk.look q = w.disk.look q) ∧
    (∀ files w', (scaffold r false).MayEnd w (.ok files) w' →
      List.Forall₂ (fun operation f => Due w.disk r false operation f ∧
        (f.action = .created → w'.disk.read f.path = .ok (bytesOf f.content)))
        r.operations files ∧
      ∃ w'', (scaffold r false).runIn w' =
          (.ok (files.map fun f => { f with action := .skipped }), w'') ∧
        World.Logged w' w'') ∧
    ∀ isForced,
      (∀ result w', (scaffold { r with isDryRun := true } isForced).MayEnd w result w' →
        World.Logged w w') ∧
      ∀ files w', (scaffold r isForced).MayEnd w (.ok files) w' →
        ∃ w'', (scaffold { r with isDryRun := true } isForced).runIn w = (.ok files, w'') := by
  have hready : Ready (typesPath r) w :=
    ⟨hnormal.child isName_types, hlinks, .inr ⟨htree, Grounded.child hgrounded isName_types⟩⟩
  have hruns : ∀ {isForced result w'}, (scaffold r isForced).MayEnd w result w' →
      (isForced = false → Spares w w') ∧
        ∀ files, result = .ok files → Scaffolded r isForced r.operations files w w' := by
    intro isForced result w' h
    exact scaffolded_of_mapM hr hreal (List.Subset.refl _) hr.nodup hready hunlogged h
  refine ⟨fun result w' h => (hruns h).1 rfl, fun files w' h => ?_, fun isForced => ⟨?_, ?_⟩⟩
  · have heach := ((hruns h).2 files rfl).each
    refine ⟨heach.imp fun operation f ⟨hdue, hheld⟩ =>
      ⟨hdue, fun haction => hheld.written (by simp [haction])⟩, ?_⟩
    -- each of them is there now
    have hagain := heach.imp fun operation f ⟨hdue, hheld⟩ =>
      show Unlogged w' (typeFile r operation) ∧
          Due w'.disk r false operation { f with action := .skipped } from
        ⟨hdue.path_eq ▸ hheld.unlogged, hdue.again hheld⟩
    obtain ⟨hunlogged', hdue⟩ := (List.forall₂_and_left _ _).mp hagain
    exact mapM_due (List.forall₂_map_right_iff.mpr hdue) hunlogged' (.inr (by simp)) (.refl w')
  · intro result w' h
    exact mapM_keeps .refl (fun _ _ _ => .trans)
      (fun operation _ _ _ _ => scaffoldOperation_dry rfl) h
  · -- what a run that succeeds has come to was due before, and a dry run says what is due
    intro files w' h
    have hdue := ((hruns h).2 files rfl).each.imp fun _ _ hboth => hboth.1.dryRun true
    obtain ⟨w'', hrun, -⟩ := mapM_due hdue hunlogged (.inl rfl) (.refl w)
    exact ⟨w'', hrun⟩

/-- A module with two operations. -/
private def getPutRequest (parts : List String) : Request :=
  ⟨"todo", ⟨.here, parts⟩, ⟨.custom, ["get", "put"]⟩, false, .express, false⟩

private theorem operations_getPutRequest (parts : List String) :
    (getPutRequest parts).operations = ["get", "put"] :=
  rfl

private theorem valid_getPutRequest (parts : List String) : (getPutRequest parts).Valid where
  name := by
    show checkModuleName "todo" = .ok "todo"
    decide +kernel
  apiType := by
    refine ⟨by simp [getPutRequest], ?_⟩
    simp [operationsRefusal?, Check.repeated, getPutRequest]
    decide

/-- A directory with one type file, written by hand. -/
private def handWorld : World :=
  let directory := Entry.directory newDirectoryMode
  .ofDisk <| Disk.empty ["w"]
    |>.put ["b", "w"] directory
    |>.put ["types", "b", "w"] directory
    |>.put ["get.todo.ts", "types", "b", "w"] (.file [0x78] newFileMode)

private def actionsOf : Except Failure (List WrittenFile) → List Action
  | .ok files => files.map (·.action)
  | .error _ => []

private theorem exists_of_actionsOf {answer : Except Failure (List WrittenFile)}
    {actions : List Action} (h : actionsOf answer = actions) (hne : actions ≠ []) :
    ∃ files, answer = .ok files ∧ files.map (·.action) = actions := by
  cases answer with
  | ok files => exact ⟨files, rfl, h⟩
  | error failure => exact (hne h.symm).elim

/-- The file is kept, and another one is created beside it. -/
theorem scaffold_keeps_first :
    ∃ files w' w'', (scaffold (getPutRequest ["b"]) false).runIn handWorld = (.ok files, w') ∧
      files.map (·.action) = [.skipped, .created] ∧
      w'.disk.look ["get.todo.ts", "types", "b", "w"] = some (.file [0x78] newFileMode) ∧
      (scaffold (getPutRequest ["b"]) false).runIn w' =
        (.ok (files.map fun f => { f with action := .skipped }), w'') ∧
      World.Logged w' w'' := by
  have hactions : actionsOf ((scaffold (getPutRequest ["b"]) false).runIn handWorld).1 =
      [.skipped, .created] := by
    simp only [scaffold, operations_getPutRequest, List.mapM_cons, List.mapM_nil,
      scaffoldOperation, writeStub, keepTypeFile, Work.readText, atomicWrite, bytesOf_typeStub,
      bind_assoc, pure_bind]
    decide +kernel
  have hlog : ∀ q, ¬ handWorld.IsLog q := fun q hq => by
    simpa [handWorld, World.ofDisk] using hq.1
  obtain ⟨hspares, hsucceeds, -⟩ := scaffold_keeps (valid_getPutRequest ["b"]) rfl
    (isTree_of_entries (by decide +kernel)) (noLinksBelow_of_entries (by decide +kernel))
    (by decide) (grounded_of_notMem (by decide) handWorld.disk)
    (fun operation _ q _ => hlog q)
  cases hrun : (scaffold (getPutRequest ["b"]) false).runIn handWorld with
  | mk answer w' =>
    rw [hrun] at hactions
    obtain ⟨files, rfl, hactions⟩ := exists_of_actionsOf hactions (by simp)
    obtain ⟨-, w'', hagain, hlogged⟩ := hsucceeds _ _ (.of_runIn hrun)
    exact ⟨files, w', w'', rfl, hactions,
      hspares _ _ (.of_runIn hrun) _ (by decide +kernel) (hlog _), hagain, hlogged⟩

/-- A path that turns back behind a missing directory leads nowhere at first, so the file
is reported as created and is overwritten. -/
theorem scaffold_behind_missing :
    (getPutRequest ["a", "..", "b"]).Valid ∧ IsTree handWorld.disk ∧
      NoLinksBelow handWorld.disk [] ∧
      handWorld.disk.look ["get.todo.ts", "types", "b", "w"] =
        some (.file [0x78] newFileMode) ∧
      ∃ files w', (scaffold (getPutRequest ["a", "..", "b"]) false).runIn handWorld =
          (.ok files, w') ∧
        files.map (·.action) = [.created, .created] ∧
        w'.disk.look ["get.todo.ts", "types", "b", "w"] ≠ some (.file [0x78] newFileMode) := by
  refine ⟨valid_getPutRequest _, isTree_of_entries (by decide +kernel),
    noLinksBelow_of_entries (by decide +kernel), by decide +kernel, ?_⟩
  have hend : actionsOf ((scaffold (getPutRequest ["a", "..", "b"]) false).runIn
        handWorld).1 = [.created, .created] ∧
      ((scaffold (getPutRequest ["a", "..", "b"]) false).runIn handWorld).2.disk.look
        ["get.todo.ts", "types", "b", "w"] ≠ some (.file [0x78] newFileMode) := by
    simp only [scaffold, operations_getPutRequest, List.mapM_cons, List.mapM_nil,
      scaffoldOperation, writeStub, keepTypeFile, Work.readText, atomicWrite, bytesOf_typeStub,
      bind_assoc, pure_bind]
    decide +kernel
  cases hrun : (scaffold (getPutRequest ["a", "..", "b"]) false).runIn handWorld with
  | mk answer w' =>
    rw [hrun] at hend
    obtain ⟨files, rfl, hactions⟩ := exists_of_actionsOf hend.1 (by simp)
    exact ⟨files, w', rfl, hactions, hend.2⟩

end Stencil.Module
