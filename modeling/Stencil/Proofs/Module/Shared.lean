import Stencil.Proofs.Module.Success

/-!
# Stencil — files that two modules share

The files of a module are named by its operations and its own name. Two modules
in different directories can still come to one file: if the directory of one of
them is where the other keeps its services, controllers, validators or types, its
routes lie among these files. They bear the name of one of them if the other
module is called `routes` and has an operation that is called like the first
module. There is no other way.

Main results:

* `Completed.canWrite` — a file that a run reports is one that can be written;
* `canWrite_iff`, `canRead_iff` — the files of a module by their names;
* `shares_iff` — when a file of one module is one of another module.
-/

namespace Stencil.Module

open Stencil.Disk Stencil.Naming Stencil.Source

variable {r r' : Request} {p : Path}

/-- Whether generating a module can write a file at the path: it is planned for
some content of the type files. -/
def CanWrite (r : Request) (p : Path) : Prop :=
  ∃ collected : Collected, collected.map (·.1) = r.operations ∧
    ∃ f ∈ plannedFiles r collected, f.path = p

/-- Whether generating a module can read a type file at the path. -/
def CanRead (r : Request) (p : Path) : Prop :=
  ∃ operation ∈ r.operations, typeFile r operation = p

/-- The directory of one module is that of the files with a role of another one,
and its routes are named like one of them. -/
structure RoutesAmong (role : Role) (inner outer : Request) : Prop where
  directory : ∃ name, role.directory? = some name ∧
    inner.modulePath = outer.modulePath.child name
  named : (moduleNames outer.moduleName).file = "routes"
  served : (moduleNames inner.moduleName).file ∈ outer.operations

/-- Every file that is reported can be written. -/
theorem Completed.canWrite {top : Place} {w w' : World} {collected : Collected}
    {written : List WrittenFile} (h : Completed r top w w' collected written) :
    ∀ x ∈ written, CanWrite r x.path := by
  intro x hx
  obtain ⟨f, hf, composed, -, rfl⟩ := h.exists_planned hx
  exact ⟨collected, h.map_fst, f, hf, rfl⟩

/-! ## The files of a module by their names -/

theorem operations_ne_nil (hr : r.Valid) : r.operations ≠ [] := by
  have hsome := hr.apiType.some
  rw [Request.operations, ApiType.operations]
  split
  · decide
  · rename_i hkind
    exact hsome hkind

theorem exists_mem_operations (hr : r.Valid) : ∃ operation, operation ∈ r.operations :=
  List.exists_mem_of_ne_nil _ (operations_ne_nil hr)

section Names

variable {operation : String}

theorem slashFree_of_mem_operations (hr : r.Valid) (h : operation ∈ r.operations) :
    SlashFree operation :=
  slashFree_of_declarable (hr.declarable operation h)

/-- The routes have the same name for every operation. -/
theorem names_routes (operation : String) (names : ModuleNames) :
    Role.routes.names operation names = [names.file ++ ".routes.ts"] :=
  rfl

/-- If every operation has a payload, all of them are found. -/
theorem present_some (operations : List String) (payload : Payload) :
    present (operations.map fun o => (o, some payload)) = operations.map fun o => (o, payload) := by
  induction operations with
  | nil => rfl
  | cons operation rest ih =>
    rw [List.map_cons, List.map_cons, ← ih]
    rfl

/-- **What a module can write**: a file for each role of an operation, and its
routes. -/
theorem canWrite_iff (hr : r.Valid) :
    CanWrite r p ↔ ∃ operation ∈ r.operations, ∃ role ∈ .routes :: operationRoles,
      p = pathBelow r.modulePath (role.names operation (moduleNames r.moduleName)) := by
  constructor
  · rintro ⟨collected, hcollected, f, hf, rfl⟩
    rw [plannedFiles] at hf
    split at hf
    · simp at hf
    · rename_i hfound
      rcases List.mem_append.mp hf with hf | hf
      · -- a file of an operation that has a payload
        obtain ⟨found, hmem, hf⟩ := List.mem_flatMap.mp hf
        obtain ⟨hrole, -, hpath⟩ := path_of_mem_operationFiles hf
        have hoperation := (map_fst_present collected).subset (List.mem_map_of_mem hmem)
        rw [hcollected] at hoperation
        rw [join_path hr f.role (slashFree_of_mem_operations hr hoperation)] at hpath
        exact ⟨found.1, hoperation, f.role, List.mem_cons_of_mem _ hrole, hpath⟩
      · obtain rfl := List.mem_singleton.mp hf
        obtain ⟨operation, hoperation⟩ := exists_mem_operations hr
        refine ⟨operation, hoperation, .routes, List.mem_cons_self, ?_⟩
        rw [path_routesFile, join_path hr .routes slashFree_empty, names_routes, names_routes]
  · rintro ⟨operation, hoperation, role, hrole, rfl⟩
    obtain ⟨payload⟩ : Nonempty Payload := ⟨⟨[], ""⟩⟩
    have hnames : (r.operations.map fun o => (o, some payload)).map (·.1) = r.operations := by
      rw [List.map_map]
      exact List.map_id _
    refine ⟨r.operations.map fun o => (o, some payload), hnames, ?_⟩
    -- every operation has a payload, so every file is planned
    have hplan : plannedFiles r (r.operations.map fun o => (o, some payload)) =
        (r.operations.map fun o => (o, payload)).flatMap
            (fun found => operationFiles r found.1 found.2) ++
          [routesFile r ((r.operations.map fun o => (o, payload)).map (·.1))] := by
      rw [plannedFiles, present_some]
      split
      · rename_i hnil
        exact absurd (List.map_eq_nil_iff.mp hnil) (operations_ne_nil hr)
      · rfl
    rw [hplan]
    rcases List.mem_cons.mp hrole with rfl | hrole
    · refine ⟨_, List.mem_append_right _ (List.mem_singleton_self _), ?_⟩
      rw [path_routesFile, join_path hr .routes slashFree_empty, names_routes, names_routes]
    · refine ⟨_, List.mem_append_left _ (List.mem_flatMap.mpr ⟨(operation, payload),
        List.mem_map_of_mem hoperation, List.mem_map_of_mem hrole⟩), ?_⟩
      exact join_path hr role (slashFree_of_mem_operations hr hoperation)

/-- **What a module can read** are its type files. -/
theorem canRead_iff (hr : r.Valid) :
    CanRead r p ↔ ∃ operation ∈ r.operations,
      p = pathBelow r.modulePath (Role.types.names operation (moduleNames r.moduleName)) := by
  have hpath : ∀ operation ∈ r.operations, typeFile r operation =
      pathBelow r.modulePath (Role.types.names operation (moduleNames r.moduleName)) :=
    fun _ hoperation => join_path hr .types (slashFree_of_mem_operations hr hoperation)
  constructor
  · rintro ⟨operation, hoperation, rfl⟩
    exact ⟨operation, hoperation, hpath operation hoperation⟩
  · rintro ⟨operation, hoperation, rfl⟩
    exact ⟨operation, hoperation, hpath operation hoperation⟩

end Names

/-! ## Files with one name -/

/-- A name without a dot in it. -/
def DotFree (text : String) : Prop :=
  '.' ∉ text.toList

theorem dotFree_of_declarable {operation : String} (h : isDeclarable operation = true) :
    DotFree operation := by
  intro hdot
  rcases char_of_isDeclarable h '.' hdot with hpart | hfeed
  · exact absurd hpart (by decide)
  · exact absurd hfeed (by decide)

theorem dotFree_file (hr : r.Valid) : DotFree (moduleNames r.moduleName).file := fun hdot =>
  absurd (alphanum_file hr.nameChars _ hdot) (by decide)

/-- Two names with a dot between them tell both names. -/
theorem pieces_dotted {first second : String} (hfirst : DotFree first) (hsecond : DotFree second) :
    Text.pieces '.' (first ++ "." ++ second ++ ".ts").toList =
      [first.toList, second.toList, ['t', 's']] := by
  have hdot : ".".toList = ['.'] := rfl
  have hend : ".ts".toList = '.' :: ['t', 's'] := rfl
  rw [String.toList_append, String.toList_append, String.toList_append, hdot, hend,
    List.append_assoc, List.append_assoc, List.singleton_append,
    Text.pieces_append_sep hfirst, Text.pieces_append_sep hsecond]
  rfl

/-- **Routes named like the file of an operation**: the module of the operation is
called `routes`, and the operation is called like the other module. -/
theorem routes_eq_operationFile_iff {operation : String} {names names' : ModuleNames}
    (ho : DotFree operation) (hn : DotFree names.file) (hn' : DotFree names'.file) :
    names.file ++ ".routes.ts" = operationFile operation names' ↔
      names'.file = "routes" ∧ names.file = operation := by
  have hstem : DotFree "routes" := by
    rw [DotFree]
    decide
  have hroutes : names.file ++ ".routes.ts" = names.file ++ "." ++ "routes" ++ ".ts" := by
    rw [String.append_assoc, String.append_assoc]
    rfl
  rw [hroutes, operationFile, fileStem]
  constructor
  · intro h
    -- cut at the dots, the two names have the same three pieces
    have hpieces := congrArg (fun name : String => Text.pieces '.' name.toList) h
    simp only [pieces_dotted hn hstem, pieces_dotted ho hn', List.cons.injEq, and_true] at hpieces
    exact ⟨(String.toList_inj.mp hpieces.2).symm, String.toList_inj.mp hpieces.1⟩
  · rintro ⟨hfile', hfile⟩
    rw [hfile', hfile]

/-! ## Shared files -/

theorem pathBelow_child (base : Path) (name : String) (names : List String) :
    pathBelow (base.child name) names = pathBelow base (name :: names) := by
  rw [pathBelow, pathBelow, Path.child, List.append_assoc]
  rfl

/-- Paths with the same names at their ends are the same path only below the same
directory. -/
theorem eq_of_pathBelow {base base' : Path} {names names' : List String} {n : Nat}
    (h : pathBelow base names = pathBelow base' names') (hn : names.length = n)
    (hn' : names'.length = n) : base = base' ∧ names = names' := by
  obtain ⟨hanchor, hparts⟩ := Disk.Path.mk.inj h
  obtain ⟨hbase, hnames⟩ := List.append_inj' hparts (hn.trans hn'.symm)
  refine ⟨?_, hnames⟩
  rw [Disk.Path.mk.injEq]
  exact ⟨hanchor, hbase⟩

/-- The routes of one module are a file of an operation of another one just if
they lie among these files. -/
theorem routes_shared_iff (hr : r.Valid) (hr' : r'.Valid) {role : Role} {directory : String}
    (hrole : role.directory? = some directory) :
    (∃ operation ∈ r'.operations,
        pathBelow r.modulePath [(moduleNames r.moduleName).file ++ ".routes.ts"] =
          pathBelow r'.modulePath (role.names operation (moduleNames r'.moduleName))) ↔
      RoutesAmong role r r' := by
  have hnames : ∀ operation, role.names operation (moduleNames r'.moduleName) =
      [directory, operationFile operation (moduleNames r'.moduleName)] := by
    intro operation
    rw [Role.names, hrole]
  have hiff : ∀ operation ∈ r'.operations,
      ((moduleNames r.moduleName).file ++ ".routes.ts" =
          operationFile operation (moduleNames r'.moduleName) ↔
        (moduleNames r'.moduleName).file = "routes" ∧
          (moduleNames r.moduleName).file = operation) := fun operation hoperation =>
    routes_eq_operationFile_iff (dotFree_of_declarable (hr'.declarable operation hoperation))
      (dotFree_file hr) (dotFree_file hr')
  constructor
  · rintro ⟨operation, hoperation, hpath⟩
    rw [hnames, ← pathBelow_child r'.modulePath] at hpath
    obtain ⟨hbase, hfile⟩ := eq_of_pathBelow (n := 1) hpath rfl rfl
    obtain ⟨hnamed, rfl⟩ := (hiff operation hoperation).mp (List.cons.inj hfile).1
    exact ⟨⟨directory, hrole, hbase⟩, hnamed, hoperation⟩
  · rintro ⟨⟨directory', hrole', hbase⟩, hnamed, hserved⟩
    obtain rfl := Option.some.inj (hrole.symm.trans hrole')
    refine ⟨_, hserved, ?_⟩
    rw [hnames, hbase, pathBelow_child, (hiff _ hserved).mpr ⟨hnamed, rfl⟩]

/-- A file lies in the directory of its role, unless it holds the routes. -/
theorem directory_of_ne_routes {role : Role} (h : role ≠ .routes) :
    ∃ directory, role.directory? = some directory := by
  cases role with
  | routes => exact absurd rfl h
  | types => exact ⟨_, rfl⟩
  | service => exact ⟨_, rfl⟩
  | controller => exact ⟨_, rfl⟩
  | validator => exact ⟨_, rfl⟩

theorem ne_routes_of_mem {role : Role} (h : role ∈ .types :: operationRoles) : role ≠ .routes :=
  ne_of_mem_of_not_mem h (by decide)

/-- What a module can write or read. -/
theorem canWrite_or_canRead_iff (hr : r.Valid) :
    CanWrite r p ∨ CanRead r p ↔
      ∃ operation ∈ r.operations, ∃ role ∈ .routes :: .types :: operationRoles,
        p = pathBelow r.modulePath (role.names operation (moduleNames r.moduleName)) := by
  rw [canWrite_iff hr, canRead_iff hr]
  constructor
  · rintro (⟨operation, hoperation, role, hrole, rfl⟩ | ⟨operation, hoperation, rfl⟩)
    · refine ⟨operation, hoperation, role, ?_, rfl⟩
      rcases List.mem_cons.mp hrole with rfl | hrole
      · exact List.mem_cons_self
      · exact List.mem_cons_of_mem _ (List.mem_cons_of_mem _ hrole)
    · exact ⟨operation, hoperation, .types, by simp, rfl⟩
  · rintro ⟨operation, hoperation, role, hrole, rfl⟩
    by_cases htypes : role = .types
    · subst htypes
      exact .inr ⟨operation, hoperation, rfl⟩
    · refine .inl ⟨operation, hoperation, role, ?_, rfl⟩
      simpa [htypes] using hrole

/-- **Files that two modules share.** Of two modules in different directories, a
file that one can write is one that the other can write or read just if the routes
of one of them lie among the files with a role of the other. -/
theorem shares_iff (hr : r.Valid) (hr' : r'.Valid) (hne : r.modulePath ≠ r'.modulePath) :
    (∃ p, CanWrite r p ∧ (CanWrite r' p ∨ CanRead r' p)) ↔
      (∃ role ∈ .types :: operationRoles, RoutesAmong role r r') ∨
        ∃ role ∈ operationRoles, RoutesAmong role r' r := by
  simp only [canWrite_or_canRead_iff hr', canWrite_iff hr]
  constructor
  · rintro ⟨p, ⟨operation, hoperation, role, hrole, hp⟩, operation', hoperation', role', hrole',
      hp'⟩
    rw [hp] at hp'
    rcases List.mem_cons.mp hrole with rfl | hrole
    · rcases List.mem_cons.mp hrole' with rfl | hrole'
      · -- both are routes, which lie in the directories themselves
        exact absurd (eq_of_pathBelow (n := 1) hp' rfl rfl).1 hne
      · obtain ⟨directory', hdirectory'⟩ := directory_of_ne_routes (ne_routes_of_mem hrole')
        exact .inl ⟨role', hrole',
          (routes_shared_iff hr hr' hdirectory').mp ⟨operation', hoperation', hp'⟩⟩
    · have hmem : role ∈ .types :: operationRoles := List.mem_cons_of_mem _ hrole
      obtain ⟨directory, hdirectory⟩ := directory_of_ne_routes (ne_routes_of_mem hmem)
      rcases List.mem_cons.mp hrole' with rfl | hrole'
      · exact .inr ⟨role, hrole,
          (routes_shared_iff hr' hr hdirectory).mp ⟨operation, hoperation, hp'.symm⟩⟩
      · -- both lie one level deeper
        obtain ⟨directory', hdirectory'⟩ := directory_of_ne_routes (ne_routes_of_mem hrole')
        rw [Role.names, Role.names, hdirectory, hdirectory'] at hp'
        exact absurd (eq_of_pathBelow (n := 2) hp' rfl rfl).1 hne
  · rintro (⟨role, hrole, hamong⟩ | ⟨role, hrole, hamong⟩)
    · obtain ⟨directory, hdirectory⟩ := directory_of_ne_routes (ne_routes_of_mem hrole)
      obtain ⟨operation', hoperation', hp⟩ := (routes_shared_iff hr hr' hdirectory).mpr hamong
      obtain ⟨operation, hoperation⟩ := exists_mem_operations hr
      exact ⟨_, ⟨operation, hoperation, .routes, List.mem_cons_self, rfl⟩, operation', hoperation',
        role, List.mem_cons_of_mem _ hrole, hp⟩
    · have hmem : role ∈ .types :: operationRoles := List.mem_cons_of_mem _ hrole
      obtain ⟨directory, hdirectory⟩ := directory_of_ne_routes (ne_routes_of_mem hmem)
      obtain ⟨operation, hoperation, hp⟩ := (routes_shared_iff hr' hr hdirectory).mpr hamong
      obtain ⟨operation', hoperation'⟩ := exists_mem_operations hr'
      exact ⟨_, ⟨operation, hoperation, role, List.mem_cons_of_mem _ hrole, rfl⟩, operation',
        hoperation', .routes, List.mem_cons_self, hp.symm⟩

end Stencil.Module
