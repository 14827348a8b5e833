import Mathlib.Data.List.Forall2
import Stencil.Module.Plan
import Stencil.Proofs.Disk.Path
import Stencil.Proofs.Module.Collect
import Stencil.Proofs.Module.Emit
import Stencil.Proofs.Naming.Words
import Stencil.Proofs.Request.Valid

/-!
# Stencil — where the planned files lie

The planned files of a valid request are named by plain names below the
module's directory, and no two of them lie at the same place: files of one
operation differ by their directory, files of different operations by the name
of the operation, and the routes lie higher up than all of them.

Main results:

* `Role.path_eq` — the path of a file by its names;
* `exists_names_of_mem_plannedFiles` — the names that lead to a planned file;
* `plannedFiles_plannable` — the planned files of a valid request.
-/

namespace Stencil.Source

open Stencil.Disk Stencil.Naming

/-! ## Names of files -/

/-- A text that is a name wherever it stands in a path. -/
structure IsFileName (text : String) : Prop where
  slash : '/' ∉ text.toList
  long : 2 < text.length

theorem IsFileName.isName {text : String} (h : IsFileName text) : IsName text := by
  have hlong := h.long
  -- the names that are not for files are short
  refine ⟨?_, ?_, ?_⟩ <;> rintro rfl <;> exact absurd hlong (by decide)

theorem IsFileName.ofText {text : String} (h : IsFileName text) :
    Path.ofText text = ⟨.here, [text]⟩ := by
  have hlong := h.long
  apply Path.ofText_name h.slash
  · rintro rfl
    exact absurd hlong (by decide)
  · rintro rfl
    exact absurd hlong (by decide)

/-- A text that may stand in the name of a file. -/
def SlashFree (text : String) : Prop :=
  '/' ∉ text.toList

theorem slashFree_of_declarable {operation : String} (h : isDeclarable operation = true) :
    SlashFree operation := by
  intro hslash
  rcases char_of_isDeclarable h '/' hslash with hpart | hfeed
  · exact absurd hpart (by decide)
  · exact absurd hfeed (by decide)

theorem slashFree_file {name : String} (h : ∀ c ∈ name.toList, isNameChar c = true) :
    SlashFree (moduleNames name).file := fun hslash =>
  absurd (alphanum_file h _ hslash) (by decide)

/-- The name of the file of an operation. -/
def operationFile (operation : String) (names : ModuleNames) : String :=
  fileStem operation names ++ ".ts"

theorem isFileName_operation {operation : String} {names : ModuleNames}
    (hoperation : SlashFree operation) (hfile : SlashFree names.file) :
    IsFileName (operationFile operation names) := by
  constructor
  · simp only [operationFile, fileStem, String.toList_append, List.mem_append]
    rintro (((h | h) | h) | h)
    · exact hoperation h
    · exact absurd h (by decide)
    · exact hfile h
    · exact absurd h (by decide)
  · simp only [operationFile, fileStem, String.length_append]
    show 2 < operation.length + 1 + names.file.length + 3
    omega

theorem isFileName_routes {names : ModuleNames} (hfile : SlashFree names.file) :
    IsFileName (names.file ++ ".routes.ts") := by
  constructor
  · rw [String.toList_append, List.mem_append]
    rintro (h | h)
    · exact hfile h
    · exact absurd h (by decide)
  · rw [String.length_append]
    show 2 < names.file.length + 10
    omega

/-- Different operations have different files. -/
theorem operationFile_inj {operation operation' : String} {names : ModuleNames}
    (h : operationFile operation names = operationFile operation' names) :
    operation = operation' := by
  have hchars := congrArg String.toList h
  simp only [operationFile, fileStem, String.toList_append, List.append_cancel_right_eq] at hchars
  exact String.toList_inj.mp hchars

/-- The directory of the files with a role, if they have one. -/
def Role.directory? : Role → Option String
  | .types => some typesDirectory
  | .service => some servicesDirectory
  | .controller => some controllersDirectory
  | .validator => some validatorsDirectory
  | .routes => none

/-- The names that lead to a file from the module's directory. -/
def Role.names (role : Role) (operation : String) (names : ModuleNames) : List String :=
  match role.directory? with
  | some directory => [directory, operationFile operation names]
  | none => [names.file ++ ".routes.ts"]

/-- **The path of a file of the module.** -/
theorem Role.path_eq (role : Role) {operation : String} {names : ModuleNames}
    (hoperation : SlashFree operation) (hfile : SlashFree names.file) :
    role.path operation names = ⟨.here, role.names operation names⟩ := by
  have hfileName := isFileName_operation hoperation hfile
  have hpath : ∀ directory, IsFileName directory →
      operationPath directory operation names =
        ⟨.here, [directory, operationFile operation names]⟩ := by
    intro directory hdirectory
    rw [operationPath, hdirectory.ofText]
    show Path.join _ (Path.ofText (operationFile operation names)) = _
    rw [hfileName.ofText]
    rfl
  -- all but the routes have a directory
  cases role with
  | types => exact hpath _ ⟨by decide, by decide⟩
  | service => exact hpath _ ⟨by decide, by decide⟩
  | controller => exact hpath _ ⟨by decide, by decide⟩
  | validator => exact hpath _ ⟨by decide, by decide⟩
  | routes => exact (isFileName_routes hfile).ofText

theorem Role.names_ne_nil (role : Role) (operation : String) (names : ModuleNames) :
    role.names operation names ≠ [] := by
  cases role <;> simp [Role.names, Role.directory?]

/-- The characters of the names that are the same for every module. -/
def stockCharacters : List Char :=
  "abcdefghijklmnopqrstuvwxyz.".toList

/-- The names of a file are made of these, and of the names that it is for. -/
theorem Role.char_of_mem (role : Role) {operation : String} {names : ModuleNames} {p : Char → Bool}
    (hstock : stockCharacters.all p = true) (hoperation : ∀ c ∈ operation.toList, p c = true)
    (hfile : ∀ c ∈ names.file.toList, p c = true) :
    ∀ x ∈ role.names operation names, ∀ c ∈ x.toList, p c = true := by
  have hfixed : ∀ text : List Char, text ⊆ stockCharacters → ∀ c ∈ text, p c = true :=
    fun text htext c hc => List.all_eq_true.mp hstock c (htext hc)
  intro x hx c hc
  rw [Role.names] at hx
  split at hx
  · rename_i directory hdirectory
    simp only [List.mem_cons, List.not_mem_nil, or_false] at hx
    rcases hx with rfl | rfl
    · refine hfixed x.toList ?_ c hc
      cases role <;> simp only [Role.directory?, Option.some.injEq, reduceCtorEq] at hdirectory <;>
        subst hdirectory <;> decide
    · simp only [operationFile, fileStem, String.toList_append, List.mem_append] at hc
      rcases hc with ((hc | hc) | hc) | hc
      · exact hoperation c hc
      · exact hfixed ".".toList (by decide) c hc
      · exact hfile c hc
      · exact hfixed ".ts".toList (by decide) c hc
  · obtain rfl := List.mem_singleton.mp hx
    rw [String.toList_append, List.mem_append] at hc
    rcases hc with hc | hc
    · exact hfile c hc
    · exact hfixed ".routes.ts".toList (by decide) c hc

theorem Role.slashFree_of_mem (role : Role) {operation : String} {names : ModuleNames}
    (hoperation : SlashFree operation) (hfile : SlashFree names.file) :
    ∀ x ∈ role.names operation names, SlashFree x := by
  intro x hx hslash
  have hchars := role.char_of_mem (p := (· != '/')) (by decide)
    (fun c hc => bne_iff_ne.mpr (ne_of_mem_of_not_mem hc hoperation))
    (fun c hc => bne_iff_ne.mpr (ne_of_mem_of_not_mem hc hfile)) x hx
  exact bne_iff_ne.mp (hchars '/' hslash) rfl

theorem Role.isName_of_mem (role : Role) {operation : String} {names : ModuleNames}
    (hoperation : SlashFree operation) (hfile : SlashFree names.file) :
    ∀ x ∈ role.names operation names, IsName x := by
  have hfileName := (isFileName_operation hoperation hfile).isName
  have hdirectory : ∀ directory, role.directory? = some directory → IsName directory := by
    intro directory h
    cases role <;> simp only [Role.directory?, Option.some.injEq, reduceCtorEq] at h <;>
      subst h <;> exact ⟨by decide, by decide, by decide⟩
  intro x hx
  rw [Role.names] at hx
  split at hx
  · rename_i directory h
    simp only [List.mem_cons, List.not_mem_nil, or_false] at hx
    rcases hx with rfl | rfl
    · exact hdirectory _ h
    · exact hfileName
  · obtain rfl := List.mem_singleton.mp hx
    exact (isFileName_routes hfile).isName

end Stencil.Source

namespace Stencil.Module

open Stencil.Disk Stencil.Naming Stencil.Source

/-! ## Planned files -/

/-- The directory of the module is there, with no link and no log file at it or
below it. -/
structure Enclosed (r : Request) (top : Place) (w : World) : Prop where
  base : w.disk.locate .beyond r.modulePath = .ok top
  directory : ∃ mode, w.disk.look top = some (.directory mode)
  noLinks : NoLinksBelow w.disk top
  unlogged : ∀ q, top <:+ q → ¬ w.IsLog q

section Roles

variable {r : Request} {top : Place} {w : World}

/-- A file of the module, by its names. -/
theorem join_path (hr : r.Valid) (role : Role) {operation : String}
    (hoperation : SlashFree operation) :
    r.modulePath.join (role.path operation (moduleNames r.moduleName)) =
      pathBelow r.modulePath (role.names operation (moduleNames r.moduleName)) := by
  rw [role.path_eq hoperation (slashFree_file hr.nameChars)]
  rfl

theorem namesBeyond_pathBelow (base : Path) (names : List String) :
    namesBeyond base (pathBelow base names) = names := by
  simp [namesBeyond, pathBelow]

theorem placeBelow_join (hr : r.Valid) (role : Role) {operation : String}
    (hoperation : SlashFree operation) :
    placeBelow r.modulePath top
        (r.modulePath.join (role.path operation (moduleNames r.moduleName))) =
      (role.names operation (moduleNames r.moduleName)).reverse ++ top := by
  rw [join_path hr role hoperation, placeBelow, namesBeyond_pathBelow]

theorem Enclosed.plannable (h : Enclosed r top w) (hr : r.Valid) (role : Role) {operation : String}
    (hoperation : SlashFree operation) :
    Plannable w.disk r.modulePath top
      (r.modulePath.join (role.path operation (moduleNames r.moduleName))) := by
  rw [join_path hr role hoperation]
  refine ⟨?_, by rw [namesBeyond_pathBelow]⟩
  rw [namesBeyond_pathBelow]
  exact ⟨h.base, h.directory, h.noLinks,
    role.isName_of_mem hoperation (slashFree_file hr.nameChars), role.names_ne_nil _ _⟩

/-- The log file is no type file. -/
theorem Enclosed.logApart (h : Enclosed r top w) (hr : r.Valid) : LogApart r w := by
  intro operation hoperation q hq
  have hplan := h.plannable hr .types (slashFree_of_declarable (hr.declarable operation hoperation))
  -- type files lie below the directory of the module, and the log does not
  rw [hplan.place_eq (by simp) hq]
  exact h.unlogged _ (List.suffix_append _ _)

end Roles

theorem exists_of_mem_right {α β : Type} {R : α → β → Prop} {xs : List α} {ys : List β}
    (h : List.Forall₂ R xs ys) {y : β} (hy : y ∈ ys) : ∃ x ∈ xs, R x y := by
  induction h with
  | nil => simp at hy
  | cons hxy _ ih =>
    rcases List.mem_cons.mp hy with rfl | hy
    · exact ⟨_, by simp, hxy⟩
    · obtain ⟨x, hx, hR⟩ := ih hy
      exact ⟨x, by simp [hx], hR⟩

/-- **What is collected** belongs to the operations, one entry for each. -/
theorem collectAllOn_eq_ok {d : Disk} {r : Request} {operations : List String}
    {collected : Collected} (h : collectAllOn d r operations = .ok collected) :
    List.Forall₂ (fun operation entry => entry.1 = operation ∧
      collectOn d r operation = .ok entry.2) operations collected := by
  induction operations generalizing collected with
  | nil =>
    obtain rfl := Except.ok.inj h
    exact .nil
  | cons operation rest ih =>
    rw [collectAllOn] at h
    cases hfirst : collectOn d r operation with
    | error failure => simp [hfirst] at h
    | ok payload? =>
      cases hrest : collectAllOn d r rest with
      | error failure => simp [hfirst, hrest, Except.map] at h
      | ok collected' =>
        obtain rfl : (operation, payload?) :: collected' = collected := by
          simpa [hfirst, hrest, Except.map] using h
        exact .cons ⟨rfl, hfirst⟩ (ih hrest)

/-- The collected payloads belong to the operations of the request. -/
theorem map_fst_collectAllOn {d : Disk} {r : Request} {operations : List String}
    {collected : Collected} (h : collectAllOn d r operations = .ok collected) :
    collected.map (·.1) = operations := by
  have hentries := collectAllOn_eq_ok h
  clear h
  induction hentries with
  | nil => rfl
  | cons hentry _ ih => rw [List.map_cons, hentry.1, ih]

/-- The operations with a payload are some of the collected ones, in order. -/
theorem map_fst_present (collected : Collected) :
    ((present collected).map (·.1)).Sublist (collected.map (·.1)) := by
  induction collected with
  | nil => exact .slnil
  | cons entry rest ih =>
    obtain ⟨operation, payload?⟩ := entry
    cases payload? with
    | none => exact ih.cons _
    | some payload => exact ih.cons_cons _

/-- Files with the same place below the same directory have the same names. -/
private theorem names_eq_of_place {names names' : List String} {top : Place}
    (h : names.reverse ++ top = names'.reverse ++ top) : names = names' := by
  rw [List.append_cancel_right_eq] at h
  exact List.reverse_inj.mp h

/-- The names of a file of an operation tell its role and its operation. -/
private theorem role_names_inj {role role' : Role} {operation operation' : String}
    {names : ModuleNames} (hrole : role ∈ operationRoles) (hrole' : role' ∈ operationRoles)
    (h : role.names operation names = role'.names operation' names) :
    role = role' ∧ operation = operation' := by
  simp only [operationRoles, List.mem_cons, List.not_mem_nil, or_false] at hrole hrole'
  -- of two roles that write for an operation, either they are the same or their directories
  -- differ
  rcases hrole with rfl | rfl | rfl <;> rcases hrole' with rfl | rfl | rfl <;>
    simp only [Role.names, Role.directory?, List.cons.injEq, and_true] at h <;>
    first
    | exact ⟨rfl, operationFile_inj h.2⟩
    | exact absurd h.1 (by decide)

/-- A planned file of an operation. -/
theorem path_of_mem_operationFiles {r : Request} {operation : String} {payload : Payload}
    {f : PlannedFile} (hf : f ∈ operationFiles r operation payload) :
    f.role ∈ operationRoles ∧ f.operation = operation ∧
      f.path = r.modulePath.join (f.role.path operation (moduleNames r.moduleName)) := by
  obtain ⟨role, hrole, rfl⟩ := List.mem_map.mp hf
  exact ⟨hrole, rfl, rfl⟩

theorem path_routesFile (r : Request) (operations : List String) :
    (routesFile r operations).path =
      r.modulePath.join (Role.routes.path "" (moduleNames r.moduleName)) := by
  simp only [routesFile, Role.path]

theorem slashFree_of_present {r : Request} (hr : r.Valid) {collected : Collected}
    (hcollected : collected.map (·.1) = r.operations) :
    ∀ found ∈ present collected, SlashFree found.1 := by
  intro found hfound
  have hmem := (map_fst_present collected).subset (List.mem_map_of_mem hfound)
  exact slashFree_of_declarable (hr.declarable _ (hcollected ▸ hmem))

theorem slashFree_empty : SlashFree "" := by
  rw [SlashFree]
  decide

/-- The path of a planned file by its role and its operation; the routes have none. -/
theorem path_of_mem_plannedFiles {r : Request} (hr : r.Valid) {collected : Collected}
    (hcollected : collected.map (·.1) = r.operations) {f : PlannedFile}
    (hf : f ∈ plannedFiles r collected) :
    SlashFree f.operation ∧ f.role ≠ .types ∧
      f.path = r.modulePath.join (f.role.path f.operation (moduleNames r.moduleName)) := by
  rw [plannedFiles] at hf
  split at hf
  · simp at hf
  · rcases List.mem_append.mp hf with hf | hf
    · obtain ⟨found, hfound, hf⟩ := List.mem_flatMap.mp hf
      obtain ⟨hrole, hoperation, hpath⟩ := path_of_mem_operationFiles hf
      rw [hoperation]
      refine ⟨slashFree_of_present hr hcollected found hfound, ?_, hpath⟩
      exact ne_of_mem_of_not_mem hrole (by decide)
    · obtain rfl := List.mem_singleton.mp hf
      exact ⟨slashFree_empty, by simp [routesFile], path_routesFile r _⟩

/-- A planned file is for an operation of the request, or for none. -/
theorem operation_of_mem_plannedFiles {r : Request} {collected : Collected}
    (hcollected : collected.map (·.1) = r.operations) {f : PlannedFile}
    (hf : f ∈ plannedFiles r collected) : f.operation ∈ r.operations ∨ f.operation = "" := by
  rw [plannedFiles] at hf
  split at hf
  · simp at hf
  · rcases List.mem_append.mp hf with hf | hf
    · obtain ⟨found, hfound, hf⟩ := List.mem_flatMap.mp hf
      obtain ⟨-, hoperation, -⟩ := path_of_mem_operationFiles hf
      have hmem := (map_fst_present collected).subset (List.mem_map_of_mem hfound)
      exact .inl (hoperation ▸ hcollected ▸ hmem)
    · rw [List.mem_singleton.mp hf]
      exact .inr rfl

/-- No name below the module's directory has the null character. -/
theorem noNul_of_mem_names {r : Request} (hr : r.Valid) (role : Role) {operation : String}
    (hoperation : operation ∈ r.operations ∨ operation = "") :
    ∀ x ∈ role.names operation (moduleNames r.moduleName), '\x00' ∉ x.toList := by
  have hchars : ∀ c ∈ operation.toList, (c != '\x00') = true := by
    intro c hc
    refine bne_iff_ne.mpr ?_
    rintro rfl
    rcases hoperation with hmem | rfl
    · rcases char_of_isDeclarable (hr.declarable operation hmem) _ hc with hpart | hfeed
      · exact absurd hpart (by decide)
      · exact absurd hfeed (by decide)
    · simp at hc
  have hfile : ∀ c ∈ (moduleNames r.moduleName).file.toList, (c != '\x00') = true := by
    intro c hc
    refine bne_iff_ne.mpr ?_
    rintro rfl
    exact absurd (alphanum_file hr.nameChars _ hc) (by decide)
  intro x hx hmem
  exact bne_iff_ne.mp (role.char_of_mem (by decide) hchars hfile x hx _ hmem) rfl

/-- A planned file, by the names that lead to it from the module's directory. -/
theorem exists_names_of_mem_plannedFiles {r : Request} (hr : r.Valid) {collected : Collected}
    (hcollected : collected.map (·.1) = r.operations) {f : PlannedFile}
    (hf : f ∈ plannedFiles r collected) :
    ∃ names last, f.path = pathBelow r.modulePath (names ++ [last]) ∧
      (∀ x ∈ names ++ [last], IsName x) ∧ ∀ x ∈ names ++ [last], '\x00' ∉ x.toList := by
  obtain ⟨hslash, -, hpath⟩ := path_of_mem_plannedFiles hr hcollected hf
  obtain ⟨names, last, hnames⟩ := (List.eq_nil_or_concat' _).resolve_left
    (Role.names_ne_nil f.role f.operation (moduleNames r.moduleName))
  refine ⟨names, last, ?_, ?_, ?_⟩ <;> rw [← hnames]
  · rw [hpath, join_path hr f.role hslash]
  · exact Role.isName_of_mem f.role hslash (slashFree_file hr.nameChars)
  · exact noNul_of_mem_names hr f.role (operation_of_mem_plannedFiles hcollected hf)

/-- The files of one operation lie in different directories. -/
private theorem operationFiles_distinct {r : Request} (hr : r.Valid) (top : Place)
    {operation : String} (hoperation : SlashFree operation) (payload : Payload) :
    (operationFiles r operation payload).Pairwise fun f g =>
      placeBelow r.modulePath top f.path ≠ placeBelow r.modulePath top g.path := by
  rw [operationFiles, List.pairwise_map]
  have hroles : operationRoles.Nodup := by decide
  refine (List.nodup_iff_pairwise_ne.mp hroles).imp_of_mem ?_
  intro role role' hrole hrole' hne hplace
  rw [placeBelow_join hr role hoperation, placeBelow_join hr role' hoperation] at hplace
  exact hne (role_names_inj hrole hrole' (names_eq_of_place hplace)).1

/-- **The planned files of a valid request** lie at different places below the
module's directory. -/
theorem plannedFiles_plannable {r : Request} {top : Place} {w : World} {collected : Collected}
    (h : Enclosed r top w) (hr : r.Valid) (hcollected : collected.map (·.1) = r.operations) :
    AllPlannable w r.modulePath top (plannedFiles r collected) := by
  have hslash := slashFree_of_present hr hcollected
  have hnodup : ((present collected).map (·.1)).Nodup :=
    (hcollected ▸ hr.nodup).sublist (map_fst_present collected)
  -- plain names, no log, and different places
  refine ⟨fun f hf => ?_, fun f hf => ?_, ?_⟩
  · obtain ⟨hoperation, -, hpath⟩ := path_of_mem_plannedFiles hr hcollected hf
    rw [hpath]
    exact h.plannable hr f.role hoperation
  · exact h.unlogged _ (List.suffix_append _ _)
  · rw [plannedFiles]
    split
    · exact .nil
    · rw [List.pairwise_append]
      refine ⟨?_, List.pairwise_singleton _ _, ?_⟩
      · rw [List.pairwise_flatMap]
        refine ⟨fun found hfound =>
          operationFiles_distinct hr top (hslash found hfound) found.2, ?_⟩
        rw [List.nodup_iff_pairwise_ne, List.pairwise_map] at hnodup
        refine hnodup.imp_of_mem ?_
        intro found found' hfound hfound' hne f hf g hg hplace
        obtain ⟨hrole, -, hf⟩ := path_of_mem_operationFiles hf
        obtain ⟨hrole', -, hg⟩ := path_of_mem_operationFiles hg
        rw [hf, hg, placeBelow_join hr f.role (hslash found hfound),
          placeBelow_join hr g.role (hslash found' hfound')] at hplace
        exact hne (role_names_inj hrole hrole' (names_eq_of_place hplace)).2
      · -- the routes lie in the module's directory itself
        intro f hf g hg hplace
        obtain ⟨found, hfound, hf⟩ := List.mem_flatMap.mp hf
        obtain ⟨hrole, -, hf⟩ := path_of_mem_operationFiles hf
        obtain rfl := List.mem_singleton.mp hg
        rw [hf, path_routesFile, placeBelow_join hr f.role (hslash found hfound),
          placeBelow_join hr .routes slashFree_empty] at hplace
        have hlength := congrArg List.length (names_eq_of_place hplace)
        simp only [operationRoles, List.mem_cons, List.not_mem_nil, or_false] at hrole
        rcases hrole with hrole | hrole | hrole <;>
          simp [hrole, Role.names, Role.directory?] at hlength

end Stencil.Module
