import Stencil.Proofs.Disk.Path
import Stencil.Proofs.Module.Quiet

/-!
# Stencil — what a generation that succeeds has done

The files of a generation are listed in the order of the operations that have a
type file, and the routes come last. They are written to different places below
the module's directory, and no type file lies at one of these. So each of them
holds in the end what is reported of it, and everything else is as it was.

Main results:

* `generate_eq_ok` — the planned files are there, and nothing else has changed;
* `generate_faithful` — the same, told by what is reported.
-/

namespace Stencil.Module

open Stencil.Disk Stencil.Naming Stencil.Source

/-! ## The files in order -/

section Listing

variable {d : Disk} {r : Request}

/-- Whether the type file of an operation is there. -/
def hasTypeFile (d : Disk) (r : Request) (operation : String) : Bool :=
  match d.isFile? (typeFile r operation) with
  | .ok isThere => isThere
  | .error _ => false

/-- The operations with a type file, in the order of the request. -/
def presentOperations (d : Disk) (r : Request) : List String :=
  r.operations.filter (hasTypeFile d r)

/-- The operation and the role of every file of a module that has these
operations. -/
def listing (operations : List String) : List (String × Role) :=
  match operations with
  | [] => []
  | _ => operations.flatMap (fun o => operationRoles.map (Prod.mk o)) ++ [("", .routes)]

/-- An operation has a payload if its type file is there. -/
theorem isSome_collectOn {operation : String} {payload? : Option Payload}
    (h : collectOn d r operation = .ok payload?) :
    payload?.isSome = hasTypeFile d r operation := by
  rw [collectOn] at h
  rw [hasTypeFile]
  cases hfile : d.isFile? (typeFile r operation) with
  | error fault => simp [hfile] at h
  | ok isThere =>
    cases isThere with
    | false =>
      rw [hfile] at h
      obtain rfl := Except.ok.inj h
      rfl
    | true =>
      cases hpayload : payloadOn d (typeFile r operation) with
      | ok payload =>
        simp only [hfile, hpayload] at h
        obtain rfl := Except.ok.inj h
        rfl
      | error failure => cases failure <;> simp [hfile, hpayload] at h

/-- The operations with a payload are those with a type file. -/
theorem map_fst_present_eq {operations : List String} {collected : Collected}
    (h : collectAllOn d r operations = .ok collected) :
    (present collected).map (·.1) = operations.filter (hasTypeFile d r) := by
  have hentries := collectAllOn_eq_ok h
  clear h
  induction hentries with
  | nil => rfl
  | @cons operation entry _ _ hentry _ ih =>
    obtain ⟨rfl, hcollect⟩ := hentry
    have hthere := isSome_collectOn hcollect
    -- an entry with a payload stays, and so does its operation
    obtain ⟨operation, payload?⟩ := entry
    cases payload? with
    | none => rw [List.filter_cons_of_neg (by simp [← hthere]), ← ih]; rfl
    | some payload => rw [List.filter_cons_of_pos (by simp [← hthere]), ← ih]; rfl

/-- The planned files are listed in order. -/
theorem map_plannedFiles (r : Request) (collected : Collected) :
    (plannedFiles r collected).map (fun f => (f.operation, f.role)) =
      listing ((present collected).map (·.1)) := by
  rw [plannedFiles]
  cases hfound : present collected with
  | nil => rfl
  | cons found rest =>
    simp only [List.map_append, List.map_flatMap, listing, List.map_cons, List.map_nil,
      List.flatMap_cons, List.flatMap_map]
    rfl

end Listing

end Stencil.Module

namespace Stencil.Source

open Stencil.Disk

/-- The directory that the files with a role lie in. -/
def Role.home (role : Role) (base : Path) : Path :=
  match role.directory? with
  | some directory => base.child directory
  | none => base

end Stencil.Source

namespace Stencil.Module

open Stencil.Disk Stencil.Naming Stencil.Source

/-! ## What is reported -/

/-- A list of answers that all are good. -/
theorem mapM_eq_ok_iff {α β ε : Type} {f : α → Except ε β} {xs : List α} {ys : List β} :
    xs.mapM f = .ok ys ↔ List.Forall₂ (fun x y => f x = .ok y) xs ys := by
  induction xs generalizing ys with
  | nil => cases ys <;> simp [pure, Except.pure]
  | cons x xs ih =>
    rw [List.mapM_cons]
    cases hx : f x with
    | error e => cases ys <;> simp [bind, Except.bind, hx]
    | ok y =>
      cases hxs : xs.mapM f with
      | error e => cases ys <;> simp [bind, Except.bind, ← ih, hxs]
      | ok zs => cases ys <;> simp [bind, Except.bind, pure, Except.pure, ← ih, hxs, hx]

/-- A report is about its planned file. -/
theorem writtenOn_eq_ok {d : Disk} {r : Request} {f : PlannedFile} {x : WrittenFile}
    (h : writtenOn d r f = .ok x) :
    ∃ composed, composeOn d f.path f.content r.isAppend = .ok composed ∧ x = f.report composed := by
  rw [writtenOn] at h
  cases hcompose : composeOn d f.path f.content r.isAppend with
  | error failure => simp [hcompose, Except.map] at h
  | ok composed =>
    rw [hcompose] at h
    exact ⟨composed, rfl, (Except.ok.inj h).symm⟩

/-- The directory of the type files is nobody else's. -/
theorem placeBelow_typeFile_ne {r : Request} (hr : r.Valid) {collected : Collected}
    (hcollected : collected.map (·.1) = r.operations) {operation : String}
    (hoperation : SlashFree operation) {f : PlannedFile} (hf : f ∈ plannedFiles r collected)
    {top : Place} :
    placeBelow r.modulePath top (typeFile r operation) ≠ placeBelow r.modulePath top f.path := by
  intro hsame
  obtain ⟨hfoperation, hrole, hpath⟩ := path_of_mem_plannedFiles hr hcollected hf
  rw [hpath, typeFile, placeBelow_join hr .types hoperation,
    placeBelow_join hr f.role hfoperation, List.append_cancel_right_eq, List.reverse_inj] at hsame
  revert hrole hsame
  cases f.role <;> simp [Role.names, Role.directory?]
  all_goals exact fun h => absurd h (by decide)

/-- What a generation has come to when all planned files are written. -/
structure Completed (r : Request) (top : Place) (w w' : World) (collected : Collected)
    (written : List WrittenFile) : Prop where
  enclosed : Enclosed r top w
  gathered : gatherOn w.disk r = .ok collected
  written : (plannedFiles r collected).mapM (writtenOn w.disk r) = .ok written
  reached : Reached (WrittenAt r top w (plannedFiles r collected)) w w'
  held : ∀ f ∈ plannedFiles r collected, ∃ composed,
    composeOn w.disk f.path f.content r.isAppend = .ok composed ∧
      w'.disk.read f.path = .ok (bytesOf composed.content)

section Runs

variable {r : Request} {w w' : World} {written : List WrittenFile}

/-- **The two phases** of a generation that succeeds. -/
theorem generate_eq_ok (hr : r.Valid) (hw : Undisturbed r w) (hdry : r.isDryRun = false)
    (hrun : (generate r).runIn w = (.ok written, w')) :
    ∃ top collected, Completed r top w w' collected written := by
  rw [generate, Work.runIn_bind, Work.runIn_log] at hrun
  obtain ⟨w₁, hcollect, hlog₁⟩ := collect_runIn (hw.logApart hr) (.log w _)
  obtain ⟨collected, w₂, hrun₂, hrun⟩ := Work.runIn_bind_ok hrun
  obtain ⟨hgather, rfl⟩ := Prod.mk.inj (hcollect.symm.trans hrun₂)
  obtain ⟨written', w₃, hemit, hrun⟩ := Work.runIn_bind_ok hrun
  obtain ⟨hwritten, hworld⟩ := Prod.mk.inj hrun
  obtain rfl := Except.ok.inj hwritten
  obtain ⟨hthere, hall⟩ := gatherOn_eq_ok hgather
  obtain ⟨top, htop⟩ := hw.enclosed hthere
  have hplan := plannedFiles_plannable htop hr (map_fst_collectAllOn hall)
  have hlast : World.Logged w₃ w' := hworld ▸ .log w₃ _
  obtain ⟨hreached, hmap, hread⟩ := writtenAt_runIn hdry hw.tree hplan hlog₁ hemit hlast
  exact ⟨top, collected, htop, hgather, hmap, hreached, hread⟩

/-- What the reported files say of a generation that has succeeded. -/
structure Faithful (r : Request) (w w' : World) (written : List WrittenFile) : Prop where
  /-- The operations with a type file in order, three files each, and the routes. -/
  listed : written.map (fun x => (x.operation, x.role)) = listing (presentOperations w.disk r)
  distinct : (written.map (·.path.text)).Nodup
  /-- Every file lies in the directory of its role. -/
  placed : ∀ x ∈ written, x.path.parent = x.role.home r.modulePath
  held : ∀ x ∈ written, w'.disk.read x.path = .ok (bytesOf x.content)
  /-- Elsewhere there may be new directories; nothing else has changed. -/
  framed : ∀ q, (∀ x ∈ written, w'.disk.locate .beyond x.path ≠ .ok q) → ¬ w.IsLog q →
    w'.disk.look q = w.disk.look q ∨
      w.disk.look q = none ∧ ∃ mode, w'.disk.look q = some (.directory mode)
  typeFiles : ∀ operation ∈ r.operations, ∀ bytes,
    w'.disk.read (typeFile r operation) = .ok bytes ↔
      w.disk.read (typeFile r operation) = .ok bytes

namespace Completed

variable {top : Place} {collected : Collected}

theorem map_fst (h : Completed r top w w' collected written) :
    collected.map (·.1) = r.operations :=
  map_fst_collectAllOn (gatherOn_eq_ok h.gathered).2

theorem plan (h : Completed r top w w' collected written) (hr : r.Valid) :
    AllPlannable w r.modulePath top (plannedFiles r collected) :=
  plannedFiles_plannable h.enclosed hr h.map_fst

/-- What is reported is reported of a planned file. -/
theorem exists_planned (h : Completed r top w w' collected written) {x : WrittenFile}
    (hx : x ∈ written) : ∃ f ∈ plannedFiles r collected, ∃ composed,
      composeOn w.disk f.path f.content r.isAppend = .ok composed ∧ x = f.report composed := by
  obtain ⟨f, hf, hfx⟩ := exists_of_mem_right (mapM_eq_ok_iff.mp h.written) hx
  exact ⟨f, hf, writtenOn_eq_ok hfx⟩

/-- What is reported of the planned files is as it was planned, apart from the
content and the action. -/
theorem map_written (h : Completed r top w w' collected written) {β : Type}
    (g : Path → String → Role → β) :
    written.map (fun x => g x.path x.operation x.role) =
      (plannedFiles r collected).map fun f => g f.path f.operation f.role := by
  have hpairs := mapM_eq_ok_iff.mp h.written
  symm
  rw [← List.forall₂_eq_eq_eq, List.forall₂_map_left_iff, List.forall₂_map_right_iff]
  refine hpairs.imp fun f x hfx => ?_
  obtain ⟨composed, -, rfl⟩ := writtenOn_eq_ok hfx
  rfl

theorem listed (h : Completed r top w w' collected written) :
    written.map (fun x => (x.operation, x.role)) = listing (presentOperations w.disk r) := by
  rw [h.map_written fun _ operation role => (operation, role), map_plannedFiles,
    map_fst_present_eq (gatherOn_eq_ok h.gathered).2]
  rfl

/-- The names of a planned file beyond the module's directory. -/
theorem path_eq (h : Completed r top w w' collected written) (hr : r.Valid) {f : PlannedFile}
    (hf : f ∈ plannedFiles r collected) :
    f.path = pathBelow r.modulePath (f.role.names f.operation (moduleNames r.moduleName)) ∧
      ∀ x ∈ f.role.names f.operation (moduleNames r.moduleName), SlashFree x := by
  obtain ⟨hoperation, -, hpath⟩ := path_of_mem_plannedFiles hr h.map_fst hf
  exact ⟨hpath.trans (join_path hr f.role hoperation),
    f.role.slashFree_of_mem hoperation (slashFree_file hr.nameChars)⟩

/-- **No two files are reported under one path**, as it is written. -/
theorem distinct (h : Completed r top w w' collected written) (hr : r.Valid) :
    (written.map (·.path.text)).Nodup := by
  rw [h.map_written fun path _ _ => path.text, List.nodup_iff_pairwise_ne, List.pairwise_map]
  refine (h.plan hr).distinct.imp_of_mem fun {f g} hf hg hplace htext => hplace ?_
  -- a written path tells the names, and the names tell the place
  obtain ⟨hfpath, hfslash⟩ := h.path_eq hr hf
  obtain ⟨hgpath, hgslash⟩ := h.path_eq hr hg
  rw [hfpath, hgpath] at htext
  have hnames := Path.text_append_inj (Role.names_ne_nil _ _ _) (Role.names_ne_nil _ _ _) hfslash
    hgslash htext
  rw [hfpath, hgpath, hnames]

theorem placed (h : Completed r top w w' collected written) (hr : r.Valid) :
    ∀ x ∈ written, x.path.parent = x.role.home r.modulePath := by
  intro x hx
  obtain ⟨f, hf, composed, -, rfl⟩ := h.exists_planned hx
  show f.path.parent = f.role.home r.modulePath
  rw [(h.path_eq hr hf).1]
  cases f.role <;>
    simp [Role.home, Role.names, Role.directory?, pathBelow, Path.parent, Path.child]

theorem read_written (h : Completed r top w w' collected written) :
    ∀ x ∈ written, w'.disk.read x.path = .ok (bytesOf x.content) := by
  intro x hx
  obtain ⟨f, hf, composed, hcomposed, rfl⟩ := h.exists_planned hx
  obtain ⟨composed', hcomposed', hread⟩ := h.held f hf
  obtain rfl := Except.ok.inj (hcomposed.symm.trans hcomposed')
  exact hread

/-- Where a planned file lies in the end. -/
theorem locate_planned (h : Completed r top w w' collected written) (hr : r.Valid)
    {f : PlannedFile} (hf : f ∈ plannedFiles r collected) :
    w'.disk.locate .beyond f.path = .ok (placeBelow r.modulePath top f.path) := by
  obtain ⟨composed, -, hread⟩ := h.held f hf
  -- a written file can be read, so its path leads to its place
  obtain ⟨-, mode, hentry⟩ := read_eq_ok_iff.mp hread
  obtain ⟨p, hp, -⟩ := entryAt_eq_ok_iff.mp hentry
  rw [← (((h.plan hr).each f hf).grown h.reached.grown).place_eq (by simp) hp, hp]

theorem framed (h : Completed r top w w' collected written) (hr : r.Valid) {q : Place}
    (hq : ∀ x ∈ written, w'.disk.locate .beyond x.path ≠ .ok q) (hlog : ¬ w.IsLog q) :
    w'.disk.look q = w.disk.look q ∨
      w.disk.look q = none ∧ ∃ mode, w'.disk.look q = some (.directory mode) := by
  refine h.reached.grown.outside q ?_
  rintro (⟨f, hf, rfl⟩ | hlogged)
  · obtain ⟨x, hx, hpath⟩ : ∃ x ∈ written, x.path = f.path := by
      have hmem := List.mem_map_of_mem (f := fun f => f.path) hf
      rw [← h.map_written fun path _ _ => path] at hmem
      exact List.mem_map.mp hmem
    exact hq x hx (hpath ▸ h.locate_planned hr hf)
  · exact hlog hlogged

/-- No file is written to the place of a type file. -/
theorem not_written_typeFile (h : Completed r top w w' collected written) (hr : r.Valid)
    {operation : String} (hoperation : SlashFree operation) :
    ¬ WrittenAt r top w (plannedFiles r collected)
        (placeBelow r.modulePath top (typeFile r operation)) := by
  rintro (⟨f, hf, hsame⟩ | hlog)
  · exact placeBelow_typeFile_ne hr h.map_fst hoperation hf hsame
  · exact h.enclosed.unlogged _ (List.suffix_append _ _) hlog

theorem typeFile_eq (h : Completed r top w w' collected written) (hr : r.Valid)
    (htree : IsTree w.disk) {operation : String} (hoperation : operation ∈ r.operations)
    (bytes : List UInt8) :
    w'.disk.read (typeFile r operation) = .ok bytes ↔
      w.disk.read (typeFile r operation) = .ok bytes := by
  have hslash := slashFree_of_declarable (hr.declarable operation hoperation)
  have hplan := h.enclosed.plannable hr .types hslash
  have hplace := h.not_written_typeFile hr hslash
  exact ⟨hplan.read_back htree h.reached.grown hplace, hplan.read_grown h.reached.grown hplace⟩

end Completed

/-- **A generation that succeeds is faithful.** It lists the service, the
controller and the validator of each operation that has a type file, in the
order of the request, and the routes if there is such an operation. The files
have different paths, each lies in the directory of its role and holds what is
reported; and no other file has changed. -/
theorem generate_faithful (hr : r.Valid) (hw : Undisturbed r w) (hdry : r.isDryRun = false)
    (hrun : (generate r).runIn w = (.ok written, w')) : Faithful r w w' written := by
  obtain ⟨top, collected, h⟩ := generate_eq_ok hr hw hdry hrun
  exact ⟨h.listed, h.distinct hr, h.placed hr, h.read_written, fun _ => h.framed hr,
    fun _ hoperation => h.typeFile_eq hr hw.tree hoperation⟩

end Runs

/-! ## A module without generated files -/

/-- Two operations of a module below the working directory. -/
def freshRequest : Request :=
  ⟨"todo", ⟨.here, ["m"]⟩, ⟨.custom, ["go", "stop"]⟩, true, .hono, false⟩

/-- The type file of one of them is there, and nothing else. -/
def freshWorld : World :=
  let directory := Entry.directory newDirectoryMode
  .ofDisk <| Disk.empty ["w"]
    |>.put ["m", "w"] directory
    |>.put ["types", "m", "w"] directory
    |>.put ["go.todo.ts", "types", "m", "w"]
      (.file (bytesOf "export type typePayload = \x7b\x7d") newFileMode)

theorem valid_freshRequest : freshRequest.Valid where
  name := by decide +kernel
  apiType := by
    refine ⟨by decide, ?_⟩
    simp [operationsRefusal?, Check.repeated, freshRequest]
    decide

theorem undisturbed_freshWorld : Undisturbed freshRequest freshWorld where
  tree := isTree_of_entries (by decide +kernel)
  noLinks := fun top _ => noLinksBelow_of_entries (by decide +kernel)
  unlogged := by
    intro top _ q _ hlog
    simp [World.IsLog, freshWorld, World.ofDisk] at hlog

theorem generate_freshWorld :
    ∃ written w', (generate freshRequest).runIn freshWorld = (.ok written, w') := by
  have hok : ((generate freshRequest).runIn freshWorld).1.isOk = true := by decide +kernel
  cases hrun : (generate freshRequest).runIn freshWorld with
  | mk answer w' =>
    rw [hrun] at hok
    cases answer with
    | error failure => simp [Except.isOk, Except.toBool] at hok
    | ok written => exact ⟨written, w', rfl⟩

/-- Only the operation with a type file is listed. -/
theorem faithful_freshWorld :
    ∃ written w', (generate freshRequest).runIn freshWorld = (.ok written, w') ∧
      presentOperations freshWorld.disk freshRequest = ["go"] ∧
      Faithful freshRequest freshWorld w' written := by
  obtain ⟨written, w', hrun⟩ := generate_freshWorld
  exact ⟨written, w', hrun, by decide +kernel,
    generate_faithful valid_freshRequest undisturbed_freshWorld rfl hrun⟩

end Stencil.Module
