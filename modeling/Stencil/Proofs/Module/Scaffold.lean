import Stencil.Module.Scaffold
import Stencil.Proofs.Module.Created
import Stencil.Proofs.Module.Directories
import Stencil.Proofs.Module.Shared
import Stencil.Proofs.Source.TypeStub

/-!
# Stencil — a new module is scaffolded and generated

Scaffolding a module whose directory does not exist makes that directory, and
creates a type file in it for every operation. What stands in these files is
read back, and so generation finds a payload for every operation and creates
every file of the module. Nothing but a refusal of the disk can come in between.

Main results:

* `scaffold_creates` — the type files of a new module;
* `generate_creates` — its other files;
* `scaffold_then_generate` — both, one after the other.
-/

namespace Stencil.Module

open Stencil.Disk Stencil.Naming Stencil.Source Stencil.Text

section Stubs

variable {r : Request} {operation : String} {w w' : World}

/-- What is reported of a new type file. -/
def stubFile (r : Request) (operation : String) : WrittenFile :=
  ⟨typeFile r operation, typeStub operation (moduleNames r.moduleName), operation, .types, .created⟩

/-- What writing a type file that the disk does not refuse does. -/
theorem writeStub_unrefused {action : Action} {result : Except Failure String}
    (hdry : r.isDryRun = false) (hrun : (writeStub r operation action).runIn w = (result, w'))
    (hresult : Unrefused result) :
    result = .ok (stubFile r operation).content ∧
      ∃ w₁, (atomicWrite (stubFile r operation).path (stubFile r operation).content).runIn w =
        (.ok (), w₁) ∧ World.Logged w₁ w' := by
  rw [writeStub, hdry] at hrun
  obtain ⟨_, w₁, hwrite, hrun⟩ := hresult.of_bind_fails hrun (atomicWrite_fails _ _)
  obtain ⟨rfl, rfl⟩ := Prod.mk.inj hrun
  exact ⟨rfl, w₁, hwrite, .log w₁ _⟩

/-- **Scaffolding one operation**: there is no type file and it is created, or
there is one that is read or replaced. -/
theorem scaffoldOperation_unrefused {isForced : Bool} {result : Except Failure WrittenFile}
    (hdry : r.isDryRun = false)
    (hrun : (scaffoldOperation r isForced operation).runIn w = (result, w'))
    (hresult : Unrefused result) :
    (result = .ok (stubFile r operation) ∧
      ∃ w₁, (atomicWrite (stubFile r operation).path (stubFile r operation).content).runIn w =
        (.ok (), w₁) ∧ World.Logged w₁ w') ∨
      w.disk.exists? (typeFile r operation) = .ok true ∧
        ((∃ w₁ bytes, World.Logged w w₁ ∧ w₁.disk.read (typeFile r operation) = .ok bytes) ∨
          ∃ w₁, (atomicWrite (stubFile r operation).path (stubFile r operation).content).runIn w =
            (.ok (), w₁)) := by
  rw [scaffoldOperation] at hrun
  obtain ⟨isThere, w₁, hthere, hrun⟩ := hresult.of_bind_fails hrun
    (.granted fun _ fault _ => ⟨fault, rfl⟩)
  rw [Work.runIn_exists?] at hthere
  obtain ⟨hexists, rfl⟩ := Prod.mk.inj hthere
  have hexists : w.disk.exists? (typeFile r operation) = .ok isThere :=
    Work.mapError_eq_ok.mp hexists
  simp only at hrun
  split at hrun
  · -- a file that is kept is read
    rename_i hkept
    obtain ⟨first, w₂, hkeep, hunrefused, -⟩ := hresult.of_bind hrun
    rw [keepTypeFile, Work.runIn_bind, Work.runIn_log] at hkeep
    obtain ⟨bytes, w₃, hread, -⟩ := hunrefused.of_bind_fails hkeep
      (.granted fun _ fault _ => ⟨fault, rfl⟩)
    rw [Work.runIn_read] at hread
    have hisThere : isThere = true := (Bool.and_eq_true_iff.mp hkept).1
    exact .inr ⟨hisThere ▸ hexists, .inl
      ⟨_, bytes, .log w _, Work.mapError_eq_ok.mp (Prod.mk.inj hread).1⟩⟩
  · obtain ⟨first, w₂, hwrite, hunrefused, hnext⟩ := hresult.of_bind hrun
    obtain ⟨rfl, w₃, hatomic, hlog⟩ := writeStub_unrefused hdry hwrite hunrefused
    obtain ⟨rfl, rfl⟩ := Prod.mk.inj (hnext _ rfl)
    cases isThere with
    | true => exact .inr ⟨hexists, .inr ⟨w₃, hatomic⟩⟩
    | false => exact .inl ⟨rfl, w₃, hatomic, hlog⟩

/-- In an empty directory a type file is created. -/
theorem scaffoldOperation_creates {top : Place} {w₀ : World} (hbare : Bare r top w₀)
    (hdry : r.isDryRun = false) (isForced : Bool) (operation : String) :
    Creates r top w₀ (scaffoldOperation r isForced operation) (stubFile r operation) := by
  intro files w result w' h hawaits hrun hresult
  rcases scaffoldOperation_unrefused hdry hrun hresult with
    ⟨rfl, w₁, hwrite, hlog⟩ | ⟨hthere, ⟨w₁, bytes, hlog, hread⟩ | ⟨w₁, hwrite⟩⟩
  · exact ⟨rfl, (h.written hbare hawaits hwrite).1.logged hbare hlog⟩
  · -- there is nothing to read
    obtain ⟨fault, hrefused⟩ := (h.logged hbare hlog).read_refused hbare hawaits
    exact absurd (hrefused.symm.trans hread) (by simp)
  · -- and nothing to replace
    obtain ⟨-, e, hentry⟩ := exists_eq_true_iff.mp hthere
    exact ((h.written hbare hawaits hwrite).2 e hentry).elim

end Stubs

/-! ## The type files of a new module -/

/-- A module whose directory is still to be made: its path leads nowhere, and it
turns back only behind names that lead somewhere. -/
structure IsNew (r : Request) (w : World) : Prop where
  tree : IsTree w.disk
  normal : r.modulePath.IsNormal
  missing : w.disk.exists? r.modulePath = .ok false
  grounded : w.disk.Grounded r.modulePath

section NewModule

variable {r : Request} {w w' : World} {operation : String}

theorem isName_types : IsName "types" := by
  constructor <;> decide

/-- The directory of the type files. -/
def typesPath (r : Request) : Path :=
  r.modulePath.child "types"

theorem isName_operationFile (hr : r.Valid) (hoperation : SlashFree operation) :
    IsName (operationFile operation (moduleNames r.moduleName)) :=
  (isFileName_operation hoperation (slashFree_file hr.nameChars)).isName

/-- The type files lie in one directory of the module's. -/
theorem typeFile_eq_child (hr : r.Valid) (hoperation : SlashFree operation) :
    typeFile r operation =
      (typesPath r).child (operationFile operation (moduleNames r.moduleName)) := by
  rw [typeFile, join_path hr .types hoperation, pathBelow, typesPath, Path.child, Path.child,
    List.append_assoc]
  rfl

/-- What is not there has no type file in it. -/
theorem IsNew.not_exists (h : IsNew r w) (hr : r.Valid) (hoperation : SlashFree operation) :
    w.disk.exists? (typeFile r operation) ≠ .ok true := by
  intro hthere
  rw [typeFile_eq_child hr hoperation] at hthere
  have hbase := exists_of_child isName_types
    (exists_of_child (isName_operationFile hr hoperation) hthere)
  rw [h.missing] at hbase
  simp at hbase

/-- A write that makes the module's directory goes on in an empty one. -/
theorem IsNew.exists_bare (h : IsNew r w) (hr : r.Valid) (hoperation : SlashFree operation)
    {content : String}
    (hwrite : (atomicWrite (typeFile r operation) content).runIn w = (.ok (), w')) :
    ∃ top w₀, Bare r top w₀ ∧
      (atomicWrite (typeFile r operation) content).runIn w₀ = (.ok (), w') := by
  obtain ⟨w₀, hdirectories, hwrite⟩ := atomicWrite_from_directory hwrite
  rw [typeFile_eq_child hr hoperation, parent_child] at hdirectories
  have hgrown := ((ensureDirectories_widens _).of_runIn hdirectories).disk
  obtain ⟨hthere, rfl | hbegins⟩ := ensureDirectories_ok hdirectories
  · -- nothing leads to it yet
    obtain ⟨hnul, m, hentry⟩ := isDirectory_eq_true_iff.mp hthere
    have hbase := exists_of_child isName_types (exists_of_entryAt hnul hentry)
    rw [h.missing] at hbase
    simp at hbase
  · obtain ⟨top, mode, hbase, hlook, hnone⟩ := look_eq_none_of_begins h.tree hgrown isName_types
      h.normal h.grounded h.missing hbegins hthere
    refine ⟨top, w₀, ⟨hbase, ⟨mode, hlook⟩, fun q hq => ?_⟩, hwrite⟩
    -- where nothing was there may be a directory now
    have hfree := h.tree.look_eq_none hnone hq
    rcases hgrown.outside q id with heq | ⟨-, hdirectory⟩
    · exact .inl (heq.trans hfree)
    · exact .inr hdirectory

/-- Type files lie at different places, one for each operation. -/
theorem stubs_distinct (hr : r.Valid) (top : Place) :
    r.operations.Pairwise fun operation operation' =>
      placeBelow r.modulePath top (stubFile r operation).path ≠
        placeBelow r.modulePath top (stubFile r operation').path := by
  refine (List.nodup_iff_pairwise_ne.mp hr.nodup).imp_of_mem ?_
  intro operation operation' hmem hmem' hne hsame
  simp only [stubFile, typeFile] at hsame
  rw [placeBelow_join hr .types (slashFree_of_mem_operations hr hmem),
    placeBelow_join hr .types (slashFree_of_mem_operations hr hmem')] at hsame
  exact hne (operationFile_inj (List.cons.inj hsame).1)

theorem Bare.plannable_stub {top : Place} (h : Bare r top w) (hr : r.Valid) :
    ∀ operation ∈ r.operations, Plannable w.disk r.modulePath top (stubFile r operation).path :=
  fun _ hmem => h.enclosed.plannable hr .types (slashFree_of_mem_operations hr hmem)

/-- **Scaffolding a new module** creates a type file for every operation. -/
theorem scaffold_creates (h : IsNew r w) (hr : r.Valid) (hdry : r.isDryRun = false)
    {isForced : Bool} {result : Except Failure (List WrittenFile)}
    (hrun : (scaffold r isForced).runIn w = (result, w')) (hresult : Unrefused result) :
    result = .ok (r.operations.map (stubFile r)) ∧
      ∃ top w₀, Bare r top w₀ ∧ Holds r top w₀ w' (r.operations.map (stubFile r)) := by
  obtain ⟨first, rest, hoperations⟩ := List.exists_cons_of_ne_nil (operations_ne_nil hr)
  rw [scaffold, hoperations, List.mapM_cons] at hrun
  obtain ⟨stub, w₁, hfirst, hunrefused, hnext⟩ := hresult.of_bind hrun
  have hmem : first ∈ r.operations := by simp [hoperations]
  have hslash : SlashFree first := slashFree_of_mem_operations hr hmem
  rcases scaffoldOperation_unrefused hdry hfirst hunrefused with
    ⟨rfl, w₂, hwrite, hlog⟩ | ⟨hthere, -⟩
  · -- the first type file comes with the directory of the module
    obtain ⟨top, w₀, hbare, hwrite⟩ := h.exists_bare hr hslash hwrite
    have hplan := hbare.plannable_stub hr
    have hdistinct := stubs_distinct hr top
    rw [hoperations] at hdistinct
    obtain ⟨hne, hdistinct⟩ := List.pairwise_cons.mp hdistinct
    have hholds : Holds r top w₀ w₁ [stubFile r first] :=
      ((Holds.start r top w₀).written hbare ⟨hplan first hmem, by simp⟩ hwrite).1.logged hbare hlog
    obtain ⟨others, w₃, hrest, hunrefused, hnext⟩ := hresult.of_bind (hnext _ rfl)
    -- the others are created in it
    obtain ⟨rfl, hall⟩ := mapM_creates
      (fun operation _ => scaffoldOperation_creates hbare hdry isForced operation)
      (fun operation hrest => hplan operation (by simp [hoperations, hrest])) hdistinct hholds
      (by simpa using hne) hrest hunrefused
    obtain ⟨rfl, rfl⟩ := Prod.mk.inj (hnext _ rfl)
    rw [hoperations]
    exact ⟨rfl, top, w₀, hbare, hall⟩
  · exact (h.not_exists hr hslash hthere).elim

end NewModule

/-! ## The other files -/

section Generated

variable {r : Request} {top : Place} {w₀ w w' : World}

/-- What a new type file says. -/
theorem payloadOn_stub {files : List WrittenFile} (h : Holds r top w₀ w files) (hr : r.Valid)
    {operation : String} (hoperation : isIdentifier operation.toList = true)
    (hmem : stubFile r operation ∈ files) :
    ∃ payload, payloadOn w.disk (typeFile r operation) = .ok payload ∧
      (payload.fields.map fun f => (f.name, f.isOptional, f.typeText)) = stubFields operation := by
  have hread : w.disk.read (typeFile r operation) =
      .ok (bytesOf (typeStub operation (moduleNames r.moduleName))) := h.read _ hmem
  obtain ⟨payload, hparse, hfields⟩ :=
    parse_typeStub hoperation hr.nameChars (typeFile r operation).text
  refine ⟨payload, ?_, hfields⟩
  rw [payloadOn, hread]
  simp only [bytesOf, Utf8.decode_encode, hparse]
  rfl

/-- Every operation has a payload. -/
theorem exists_collected (h : Holds r top w₀ w (r.operations.map (stubFile r))) (hr : r.Valid)
    (hidentifiers : ∀ operation ∈ r.operations, isIdentifier operation.toList = true)
    {operations : List String} (hsub : operations ⊆ r.operations) :
    ∃ collected, collectAllOn w.disk r operations = .ok collected ∧
      (present collected).map (·.1) = operations := by
  induction operations with
  | nil => exact ⟨[], rfl, rfl⟩
  | cons operation rest ih =>
    obtain ⟨hmem, hsub⟩ := List.cons_subset.mp hsub
    have hstub : stubFile r operation ∈ r.operations.map (stubFile r) := List.mem_map_of_mem hmem
    obtain ⟨payload, hpayload, -⟩ := payloadOn_stub h hr (hidentifiers operation hmem) hstub
    have hfile : w.disk.isFile? (typeFile r operation) = .ok true :=
      isFile_eq_true_iff.mpr ⟨_, h.read _ hstub⟩
    obtain ⟨collected, hcollect, hpresent⟩ := ih hsub
    refine ⟨(operation, some payload) :: collected, ?_, ?_⟩
    · rw [collectAllOn, collectOn, hfile]
      simp only [hpayload, hcollect]
      rfl
    · rw [← hpresent]
      rfl

/-- The first phase finds all of them. -/
theorem exists_gathered (h : Holds r top w₀ w (r.operations.map (stubFile r)))
    (hbare : Bare r top w₀) (hr : r.Valid)
    (hidentifiers : ∀ operation ∈ r.operations, isIdentifier operation.toList = true) :
    ∃ collected, gatherOn w.disk r = .ok collected ∧ collected.map (·.1) = r.operations ∧
      (present collected).map (·.1) = r.operations := by
  obtain ⟨operation, hmem⟩ := exists_mem_operations hr
  obtain ⟨hnul, -⟩ := read_eq_ok_iff.mp (h.read _ (List.mem_map_of_mem hmem))
  have henclosed := h.enclosed hbare
  obtain ⟨mode, hlook⟩ := henclosed.directory
  -- the path to a type file goes on from the module's directory
  have hthere : w.disk.isDirectory? r.modulePath = .ok true := by
    have hbase : r.modulePath.hasNul = false := by
      refine Path.hasNul_eq_false_iff.mpr fun x hx => Path.hasNul_eq_false_iff.mp hnul x ?_
      rw [show (stubFile r operation).path = typeFile r operation from rfl, typeFile,
        join_path hr .types (slashFree_of_mem_operations hr hmem)]
      exact List.mem_append_left _ hx
    exact isDirectory_eq_true_iff.mpr
      ⟨hbase, mode, entryAt_eq_ok_iff.mpr ⟨top, henclosed.base, hlook⟩⟩
  obtain ⟨collected, hcollect, hpresent⟩ := exists_collected h hr hidentifiers (List.Subset.refl _)
  refine ⟨collected, ?_, map_fst_collectAllOn hcollect, hpresent⟩
  rw [gatherOn, hthere]
  exact hcollect

/-- What is reported of a planned file that is created. -/
def PlannedFile.reportNew (f : PlannedFile) : WrittenFile :=
  f.report ⟨f.content, .created⟩

/-- **A module with new type files** is generated: every other file is created. -/
theorem generate_creates (h : Holds r top w₀ w (r.operations.map (stubFile r)))
    (hbare : Bare r top w₀) (hr : r.Valid) (hdry : r.isDryRun = false)
    (hidentifiers : ∀ operation ∈ r.operations, isIdentifier operation.toList = true)
    {result : Except Failure (List WrittenFile)} (hrun : (generate r).runIn w = (result, w'))
    (hresult : Unrefused result) :
    ∃ collected, (present collected).map (·.1) = r.operations ∧
      result = .ok ((plannedFiles r collected).map (·.reportNew)) ∧
      Holds r top w₀ w' (r.operations.map (stubFile r) ++
        (plannedFiles r collected).map (·.reportNew)) := by
  obtain ⟨collected, hgather, hcollected, hpresent⟩ := exists_gathered h hbare hr hidentifiers
  obtain ⟨w₁, hcollect, hlog⟩ :=
    collect_runIn (fun _ => (h.enclosed hbare).logApart hr) (.log w _)
  rw [generate, Work.runIn_bind, Work.runIn_log] at hrun
  obtain ⟨first, w₂, hfirst, -, hnext⟩ := hresult.of_bind hrun
  obtain ⟨rfl, rfl⟩ := Prod.mk.inj (hcollect.symm.trans hfirst)
  obtain ⟨written, w₃, hemit, hunrefused, hnext⟩ := hresult.of_bind (hnext _ hgather)
  have hplan := plannedFiles_plannable hbare.enclosed hr hcollected
  -- no planned file has the place of a type file
  have hfresh : ∀ f ∈ r.operations.map (stubFile r), ∀ g ∈ plannedFiles r collected,
      placeBelow r.modulePath top f.path ≠ placeBelow r.modulePath top g.reportNew.path := by
    intro f hf g hg
    obtain ⟨operation, hmem, rfl⟩ := List.mem_map.mp hf
    exact placeBelow_typeFile_ne hr hcollected (slashFree_of_mem_operations hr hmem) hg
  obtain ⟨rfl, hall⟩ := mapM_creates (fun file _ => writePlanned_creates hbare hdry file)
    hplan.each hplan.distinct (h.logged hbare hlog) hfresh hemit hunrefused
  obtain ⟨rfl, rfl⟩ := Prod.mk.inj (hnext _ rfl)
  exact ⟨collected, hpresent, rfl, hall.logged hbare (.log w₃ _)⟩

/-- Three files for each operation, and the routes. -/
theorem length_plannedFiles {collected : Collected} {operations : List String}
    (h : (present collected).map (·.1) = operations) (hne : operations ≠ []) :
    (plannedFiles r collected).length = 3 * operations.length + 1 := by
  have hlisting := congrArg List.length (map_plannedFiles r collected)
  rw [List.length_map, h] at hlisting
  obtain ⟨first, rest, rfl⟩ := List.exists_cons_of_ne_nil hne
  rw [hlisting, listing]
  · simp [operationRoles]
    omega
  · simp

end Generated

/-! ## Scaffolding and generating -/

/-- Scaffolds a module and generates it then. -/
def scaffoldThenGenerate (r : Request) (isForced : Bool) :
    Work (List WrittenFile × List WrittenFile) := do
  let stubs ← scaffold r isForced
  let files ← generate r
  return (stubs, files)

/-- **Scaffolding and then generating a new module** goes through unless the disk
refuses something. All files are created, three for each operation and the
routes, and the type files are read with the fields of their operations. -/
theorem scaffold_then_generate {r : Request} {w w' : World} {isForced : Bool}
    {result : Except Failure (List WrittenFile × List WrittenFile)} (hr : r.Valid)
    (hidentifiers : ∀ operation ∈ r.operations, isIdentifier operation.toList = true)
    (hdry : r.isDryRun = false) (hnew : IsNew r w)
    (hrun : (scaffoldThenGenerate r isForced).runIn w = (result, w'))
    (hrefused : ∀ fault, result ≠ .error (.disk fault)) :
    ∃ stubs files, result = .ok (stubs, files) ∧
      stubs.map (·.path) = r.operations.map (typeFile r) ∧
      files.length = 3 * r.operations.length + 1 ∧
      (∀ f ∈ stubs ++ files, f.action = .created) ∧
      ∀ operation ∈ r.operations, ∃ payload,
        ((readPayload (typeFile r operation)).runIn w').1 = .ok payload ∧
          (payload.fields.map fun f => (f.name, f.isOptional, f.typeText)) =
            stubFields operation := by
  have hresult : Unrefused result := by
    rintro failure rfl ⟨fault, rfl⟩
    exact hrefused fault rfl
  obtain ⟨stubs, w₁, hscaffold, hunrefused, hnext⟩ := hresult.of_bind hrun
  obtain ⟨rfl, top, w₀, hbare, hholds⟩ := scaffold_creates hnew hr hdry hscaffold hunrefused
  obtain ⟨files, w₂, hgenerate, hunrefused, hnext⟩ := hresult.of_bind (hnext _ rfl)
  obtain ⟨collected, hpresent, rfl, hholds⟩ :=
    generate_creates hholds hbare hr hdry hidentifiers hgenerate hunrefused
  obtain ⟨rfl, rfl⟩ := Prod.mk.inj (hnext _ rfl)
  refine ⟨_, _, rfl, by simp [stubFile], ?_, ?_, fun operation hmem => ?_⟩
  · rw [List.length_map, length_plannedFiles hpresent (operations_ne_nil hr)]
  · intro f hf
    rcases List.mem_append.mp hf with hf | hf <;> obtain ⟨_, -, rfl⟩ := List.mem_map.mp hf <;> rfl
  · obtain ⟨payload, hpayload, hfields⟩ := payloadOn_stub hholds hr (hidentifiers operation hmem)
      (List.mem_append_left _ (List.mem_map_of_mem hmem))
    obtain ⟨w₃, hread, -⟩ := readPayload_runIn (typeFile r operation) w₂
    exact ⟨payload, by rw [hread, hpayload], hfields⟩

/-- A type file's bytes, line by line. -/
theorem bytesOf_typeStub (operation : String) (names : ModuleNames) :
    bytesOf (typeStub operation names) =
      Utf8.encode ((typeStubLines operation names).flatMap fun line => line.toList ++ ['\n']) := by
  rw [bytesOf, typeStub, String.toList_join, List.flatMap_map]
  simp only [String.toList_append]
  rfl

/-- A module with one operation, in append mode. -/
private def getRequest (parts : List String) : Request :=
  ⟨"todo", ⟨.here, parts⟩, ⟨.custom, ["get"]⟩, true, .express, false⟩

private theorem operations_getRequest (parts : List String) :
    (getRequest parts).operations = ["get"] :=
  rfl

private theorem valid_getRequest (parts : List String) : (getRequest parts).Valid where
  name := by
    show checkModuleName "todo" = .ok "todo"
    decide +kernel
  apiType := by
    refine ⟨by simp [getRequest], ?_⟩
    simp [operationsRefusal?, Check.repeated, getRequest]
    decide

private theorem isIdentifier_getRequest (parts : List String) :
    ∀ operation ∈ (getRequest parts).operations, isIdentifier operation.toList = true := by
  rw [operations_getRequest]
  decide

/-- A module without a directory has four files in the end, and the type file is
read. -/
theorem scaffolded_getRequest :
    ∃ stubs files w',
      (scaffoldThenGenerate (getRequest ["m"]) false).runIn (.ofDisk (Disk.empty ["w"])) =
          (.ok (stubs, files), w') ∧
        files.length = 4 ∧ (∀ f ∈ stubs ++ files, f.action = .created) ∧
        ∃ payload, ((readPayload ⟨.here, ["m", "types", "get.todo.ts"]⟩).runIn w').1 =
            .ok payload ∧
          (payload.fields.map fun f => (f.name, f.isOptional, f.typeText)) =
            [("id", false, "string")] := by
  have hnew : IsNew (getRequest ["m"]) (.ofDisk (Disk.empty ["w"])) :=
    ⟨isTree_of_entries (by decide +kernel), by decide, by decide +kernel,
      grounded_of_notMem (by decide) _⟩
  have hok : ((scaffoldThenGenerate (getRequest ["m"]) false).runIn
      (.ofDisk (Disk.empty ["w"]))).1.isOk = true := by
    -- the texts are taken as characters, so that the type file need not be put together
    simp only [scaffoldThenGenerate, scaffold, operations_getRequest, List.mapM_cons,
      List.mapM_nil, scaffoldOperation, writeStub, atomicWrite, bytesOf_typeStub, generate, collect,
      collectOperation, readPayload, Work.readText, bind_assoc, pure_bind, Payload.parse_eq_bind,
      String.toList_ofList]
    decide +kernel
  cases hrun : (scaffoldThenGenerate (getRequest ["m"]) false).runIn
      (.ofDisk (Disk.empty ["w"])) with
  | mk result w' =>
    rw [hrun] at hok
    obtain ⟨stubs, files, rfl, -, hlength, hcreated, hread⟩ :=
      scaffold_then_generate (valid_getRequest _) (isIdentifier_getRequest _) rfl hnew hrun
        (by rintro fault rfl; simp [Except.isOk, Except.toBool] at hok)
    exact ⟨stubs, files, w', rfl, hlength, hcreated, hread "get" (by simp [operations_getRequest])⟩

/-- A directory in which a service is no text. -/
private def servedWorld : World :=
  let directory := Entry.directory newDirectoryMode
  .ofDisk <| Disk.empty ["w"]
    |>.put ["b", "w"] directory
    |>.put ["services", "b", "w"] directory
    |>.put ["get.todo.ts", "services", "b", "w"] (.file [0xFF] newFileMode)

private def isServiceConflict : Except Failure (List WrittenFile × List WrittenFile) → Bool
  | .error (.conflict path _) => path = "a/../b/services/get.todo.ts"
  | _ => false

private theorem exists_of_isServiceConflict
    {answer : Except Failure (List WrittenFile × List WrittenFile)}
    (h : isServiceConflict answer = true) :
    ∃ reason, answer = .error (.conflict "a/../b/services/get.todo.ts" reason) := by
  rw [isServiceConflict.eq_def] at h
  split at h
  · rename_i path reason
    obtain rfl : path = "a/../b/services/get.todo.ts" := of_decide_eq_true h
    exact ⟨reason, rfl⟩
  · simp at h

/-- A path that turns back behind a missing directory leads nowhere at first, and to a
directory with files once the missing one has been made. -/
theorem conflict_behind_missing :
    (getRequest ["a", "..", "b"]).Valid ∧
      (∀ operation ∈ (getRequest ["a", "..", "b"]).operations,
        isIdentifier operation.toList = true) ∧
      (getRequest ["a", "..", "b"]).isDryRun = false ∧ IsTree servedWorld.disk ∧
      servedWorld.disk.exists? (getRequest ["a", "..", "b"]).modulePath = .ok false ∧
      ∃ reason w', (scaffoldThenGenerate (getRequest ["a", "..", "b"]) false).runIn servedWorld =
        (.error (.conflict "a/../b/services/get.todo.ts" reason), w') := by
  refine ⟨valid_getRequest _, isIdentifier_getRequest _, rfl,
    isTree_of_entries (by decide +kernel), by decide +kernel, ?_⟩
  have hconflict : isServiceConflict ((scaffoldThenGenerate (getRequest ["a", "..", "b"])
      false).runIn servedWorld).1 = true := by
    simp only [scaffoldThenGenerate, scaffold, operations_getRequest, List.mapM_cons,
      List.mapM_nil, scaffoldOperation, writeStub, atomicWrite, bytesOf_typeStub, generate, collect,
      collectOperation, readPayload, Work.readText, bind_assoc, pure_bind, Payload.parse_eq_bind,
      String.toList_ofList]
    decide +kernel
  cases hrun : (scaffoldThenGenerate (getRequest ["a", "..", "b"]) false).runIn servedWorld with
  | mk answer w' =>
    rw [hrun] at hconflict
    obtain ⟨reason, rfl⟩ := exists_of_isServiceConflict hconflict
    exact ⟨reason, w', rfl⟩

end Stencil.Module
