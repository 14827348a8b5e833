import Mathlib.Data.List.Nodup
import Stencil.Proofs.Module.Plan
import Stencil.Proofs.Source.Reading

/-!
# Stencil — generated files that link up

The files of a module are written by separate templates, and import each other
by name and place. Read back from the text of the planned files, every import
from a relative place leads to another planned file or to the type file of an
operation that is there; a default import takes the name of the function that
its file exports; and the file of routes imports and registers the controllers
of the present operations, one each and in order, on routes that differ.

Main results:

* `relativeImports_of_mem` — what a planned file imports from the module;
* `exportOf_service`, `exportOf_controller` — what planned files export;
* `planned_linked` — the planned files of a request link up.
-/

namespace Stencil.Module

open Stencil.Disk Stencil.Naming Stencil.Payload Stencil.Region Stencil.Source Stencil.Text

/-! ## Reading planned files -/

/-- Where a relative specifier leads from a directory; the ending of the file's
name is left out in it. -/
def follow (directory : Path) (specifier : String) : Path :=
  (pieces '/' (specifier ++ ".ts").toList).foldl step directory
where
  step (p : Path) (part : List Char) : Path :=
    if part = ['.'] then p
    else if part = ['.', '.'] then p.parent
    else p.child (String.ofList part)

/-- The lines of a planned file. -/
def linesOf (f : PlannedFile) : List (List Char) :=
  pieces '\n' f.content.toList

/-- The imports at the head of a planned file, below the marker. -/
def importsOf (f : PlannedFile) : List ImportLine :=
  leadingImports ((linesOf f).drop 1)

/-- The imports of a planned file from other files. -/
def relativeImports (f : PlannedFile) : List ImportLine :=
  (importsOf f).filter ImportLine.isRelative

/-- The name of the function that a planned file exports. -/
def exportOf (f : PlannedFile) : Option String :=
  exportedName? (linesOf f)

/-- The registrations in a planned file. -/
def registrationsOf (f : PlannedFile) : List Registration :=
  registrationsIn (linesOf f)

/-- Where an import of a planned file leads. -/
def target (f : PlannedFile) (i : ImportLine) : Path :=
  follow f.path.parent i.specifier

/-- The operations that have a payload. -/
def presentNames (collected : Collected) : List String :=
  (present collected).map (·.1)

/-- An import leads to another planned file, which exports what is taken from it, or
to the type file of a present operation. -/
def Resolves (r : Request) (collected : Collected) (f : PlannedFile) (i : ImportLine) : Prop :=
  (∃ g ∈ plannedFiles r collected, g.path = target f i ∧ g.path ≠ f.path ∧
    ∀ name, i.whole? = some name → exportOf g = some name) ∨
  (i.whole? = none ∧ ∃ found ∈ present collected, typeFile r found.1 = target f i)

/-- The planned files link up. -/
structure Linked (r : Request) (collected : Collected) : Prop where
  /-- Every relative import leads somewhere. -/
  resolved : ∀ f ∈ plannedFiles r collected, ∀ i ∈ relativeImports f, Resolves r collected f i
  /-- A controller takes one default export, that of its service. -/
  services : ∀ f ∈ plannedFiles r collected, f.role = .controller →
    (relativeImports f).filterMap (·.whole?) =
      [serviceName f.operation (moduleNames r.moduleName)]
  /-- The present operations are in the order of the request. -/
  ordered : (presentNames collected).Sublist r.operations
  /-- One file holds the routes. It imports and registers the controller of every
  present operation, in order, and no two registrations share their route or their
  handler. -/
  routes : ∃ f, (plannedFiles r collected).filter (·.role = .routes) = [f] ∧
    (relativeImports f).map (·.whole?) = (presentNames collected).map (fun o =>
      some (controllerName o (moduleNames r.moduleName))) ∧
    registrationsOf f = (presentNames collected).map (fun o =>
      ⟨Route.ofOperation o, controllerName o (moduleNames r.moduleName)⟩) ∧
    ((registrationsOf f).map (·.route)).Nodup ∧ ((registrationsOf f).map (·.handler)).Nodup

/-! ## Lines of wrapped bodies -/

theorem linesOf_wrapped {f : PlannedFile} {body : String} (hcontent : f.content = wrapped body)
    (hbody : IsTidy body.toList) :
    linesOf f = beginMarker :: pieces '\n' (body.toList ++ (endMarker ++ ['\n'])) := by
  have hmarker : '\n' ∉ beginMarker := by decide
  have hwrap : (wrapped body).toList =
      beginMarker ++ '\n' :: (body.toList ++ (endMarker ++ ['\n'])) := by
    rw [wrapped, String.toList_ofList, wrap_eq, hbody.bodyRegion_eq, List.append_assoc]
    rfl
  rw [linesOf, hcontent, hwrap, pieces_append_sep hmarker]

/-- The imports of a file whose lines begin with them. -/
theorem relativeImports_eq {f : PlannedFile} {imports : List Import} {rest : List (List Char)}
    (himports : ∀ i ∈ imports, i.IsReadable)
    (hlines : linesOf f = beginMarker :: (imports.map (·.render.toList) ++ [] :: rest)) :
    relativeImports f = (imports.filter (·.origin.isRelative)).map Import.asRead := by
  have hread : importsOf f = imports.map Import.asRead := by
    rw [importsOf, hlines]
    exact leadingImports_append himports rest
  rw [relativeImports, hread, List.filter_map]
  congr 1
  exact List.filter_congr fun i hi => isRelative_asRead (himports i hi)

theorem exportOf_eq {f : PlannedFile} {imports : List Import} {name : String} {tail : List Char}
    {more : List (List Char)} (hname : isIdentifier name.toList = true)
    (hlines : linesOf f = beginMarker :: (imports.map (·.render.toList) ++
      [] :: ("export default async function ".toList ++ (name.toList ++ '(' :: tail)) :: more)) :
    exportOf f = some name := by
  have hmarker : dropWord "export default async function " beginMarker = none := by decide
  have hopening := exportedName?_opening hname imports tail more
  rw [exportedName?] at hopening
  rw [exportOf, hlines, exportedName?, List.findSome?_cons, hmarker]
  exact hopening

/-- **A file with one function** gives back its imports and the function's name. -/
theorem read_handler {f : PlannedFile} {h : Handler} (hcontent : f.content = wrapped h.render)
    (hne : h.imports ≠ []) (himports : ∀ i ∈ h.imports, i.IsReadable)
    (hname : isIdentifier h.name.toList = true) :
    relativeImports f = (h.imports.filter (·.origin.isRelative)).map Import.asRead ∧
      exportOf f = some h.name := by
  have hlines := linesOf_wrapped hcontent (isTidy_handler hne)
  obtain ⟨tail, more, hpieces⟩ := pieces_handler himports hname (endMarker ++ ['\n'])
  rw [hpieces] at hlines
  exact ⟨relativeImports_eq himports hlines, exportOf_eq hname hlines⟩

theorem read_validator {f : PlannedFile} {v : Validator} (hcontent : f.content = wrapped v.render)
    (hne : v.imports ≠ []) (himports : ∀ i ∈ v.imports, i.IsReadable) :
    relativeImports f = (v.imports.filter (·.origin.isRelative)).map Import.asRead := by
  have hlines := linesOf_wrapped hcontent (isTidy_validator hne)
  obtain ⟨rest, hrender⟩ : ∃ rest, v.render.toList ++ (endMarker ++ ['\n']) =
      (String.join (v.imports.map (·.render ++ "\n"))).toList ++ '\n' :: rest := by
    have hschema : "\nexport const payloadSchema = ".toList =
        '\n' :: "export const payloadSchema = ".toList := rfl
    simp only [Validator.render, String.toList_append, hschema, List.append_assoc,
      List.cons_append]
    exact ⟨_, rfl⟩
  rw [hrender, pieces_imports himports] at hlines
  exact relativeImports_eq himports hlines

/-- **A file of routes** gives back its imports and its registrations. -/
theorem read_routes {f : PlannedFile} {r : Routes} (hcontent : f.content = wrapped r.render)
    (hne : r.imports ≠ []) (himports : ∀ i ∈ r.imports, i.IsReadable)
    (hregistrations : ∀ g ∈ r.registrations, g.IsReadable) :
    relativeImports f = (r.imports.filter (·.origin.isRelative)).map Import.asRead ∧
      registrationsOf f = r.registrations := by
  have hlines := linesOf_wrapped hcontent (isTidy_routes hne)
  rw [pieces_routes himports hregistrations] at hlines
  constructor
  · -- the imports are the first lines, and an empty one comes next
    obtain ⟨rest, hhead⟩ : ∃ rest, r.fileLines.map String.toList =
        r.imports.map (·.render.toList) ++ [] :: rest := by
      rw [Routes.fileLines]
      simp only [List.map_append, List.map_cons, List.map_map, List.append_assoc, List.cons_append,
        String.toList_empty]
      exact ⟨_, rfl⟩
    rw [hhead, List.append_assoc] at hlines
    exact relativeImports_eq himports hlines
  · have hbegin : readRegistration? beginMarker = none := by decide
    have hend : registrationsIn (pieces '\n' (endMarker ++ ['\n'])) = [] := by decide
    have hread := registrationsIn_routes hregistrations
    rw [registrationsIn] at hread hend
    rw [registrationsOf, hlines, registrationsIn, List.filterMap_cons, hbegin,
      List.filterMap_append, hread, hend, List.append_nil]

/-! ## Following specifiers -/

theorem step_name {text : String} (h : IsFileName text) (p : Path) :
    follow.step p text.toList = p.child text := by
  have hlong : 2 < text.toList.length := by
    rw [String.length_toList]
    exact h.long
  have hdot : text.toList ≠ ['.'] := by
    intro heq
    rw [heq] at hlong
    exact absurd hlong (by decide)
  have hdots : text.toList ≠ ['.', '.'] := by
    intro heq
    rw [heq] at hlong
    exact absurd hlong (by decide)
  rw [follow.step, if_neg hdot, if_neg hdots, String.ofList_toList]

section Follow

variable {directory file : String}

/-- From a file in one directory to a file in another one beside it. -/
theorem follow_beside (hdirectory : IsFileName directory) (hfile : IsFileName (file ++ ".ts"))
    (base : Path) (own name : String) :
    follow (pathBelow base [own, name]).parent (Origin.beside directory file).render =
      pathBelow base [directory, file ++ ".ts"] := by
  have hparts : ((Origin.beside directory file).render ++ ".ts").toList =
      ['.', '.'] ++ '/' :: (directory.toList ++ '/' :: (file ++ ".ts").toList) := by
    simp [Origin.render]
  have hup : follow.step (pathBelow base [own]) ['.', '.'] = pathBelow base [] :=
    parent_pathBelow base [] own
  have hparent : (pathBelow base [own, name]).parent = pathBelow base [own] :=
    parent_pathBelow base [own] name
  rw [follow, hparts, pieces_append_sep (by decide), pieces_append_sep hdirectory.slash,
    pieces_of_notMem hfile.slash, hparent]
  simp only [List.foldl_cons, List.foldl_nil, hup, step_name hdirectory, step_name hfile]
  simp [pathBelow, Path.child]

/-- From a file of the module's directory to a file in a directory below. -/
theorem follow_below (hdirectory : IsFileName directory) (hfile : IsFileName (file ++ ".ts"))
    (base : Path) (name : String) :
    follow (pathBelow base [name]).parent (Origin.below directory file).render =
      pathBelow base [directory, file ++ ".ts"] := by
  have hparts : ((Origin.below directory file).render ++ ".ts").toList =
      ['.'] ++ '/' :: (directory.toList ++ '/' :: (file ++ ".ts").toList) := by
    simp [Origin.render]
  have hstay : follow.step (pathBelow base []) ['.'] = pathBelow base [] := rfl
  have hparent : (pathBelow base [name]).parent = pathBelow base [] := parent_pathBelow base [] name
  rw [follow, hparts, pieces_append_sep (by decide), pieces_append_sep hdirectory.slash,
    pieces_of_notMem hfile.slash, hparent]
  simp only [List.foldl_cons, List.foldl_nil, hstay, step_name hdirectory, step_name hfile]
  simp [pathBelow, Path.child]

end Follow

/-! ## The planned files -/

section Planned

variable {r : Request} {collected : Collected} {operation : String} {payload : Payload}

/-- The file with a role that is planned for an operation. -/
def operationFileOf (r : Request) (role : Role) (operation : String) (payload : Payload) :
    PlannedFile where
  path := r.modulePath.join (role.path operation (moduleNames r.moduleName))
  content := wrapped (operationBody role operation (moduleNames r.moduleName) payload r.framework)
  operation := operation
  role := role

/-- The files of the present operations, and one of routes. -/
theorem plannedFiles_eq (hpresent : present collected ≠ []) :
    plannedFiles r collected = (present collected).flatMap (fun found =>
        operationRoles.map fun role => operationFileOf r role found.1 found.2) ++
      [routesFile r (presentNames collected)] := by
  rw [plannedFiles, presentNames]
  cases hfound : present collected with
  | nil => exact absurd hfound hpresent
  | cons found rest => rfl

theorem mem_plannedFiles_iff (hpresent : present collected ≠ []) {f : PlannedFile} :
    f ∈ plannedFiles r collected ↔
      (∃ found ∈ present collected, ∃ role ∈ operationRoles,
        operationFileOf r role found.1 found.2 = f) ∨
      f = routesFile r (presentNames collected) := by
  rw [plannedFiles_eq hpresent, List.mem_append, List.mem_flatMap, List.mem_singleton]
  simp only [List.mem_map]

theorem path_operationFileOf (hr : r.Valid) (role : Role)
    (hoperation : isIdentifier operation.toList = true) :
    (operationFileOf r role operation payload).path =
      pathBelow r.modulePath (role.names operation (moduleNames r.moduleName)) :=
  join_path hr role (slashFree_of_declarable (isDeclarable_of_isIdentifier hoperation))

theorem read_service (hr : r.Valid) (hoperation : isIdentifier operation.toList = true) :
    relativeImports (operationFileOf r .service operation payload) =
        [⟨none, (Origin.beside typesDirectory
          (fileStem operation (moduleNames r.moduleName))).render⟩] ∧
      exportOf (operationFileOf r .service operation payload) =
        some (serviceName operation (moduleNames r.moduleName)) :=
  read_handler (h := service operation (moduleNames r.moduleName) payload) rfl (by simp [service])
    (isReadable_service hoperation hr.nameChars payload)
    (isIdentifier_functionName hoperation hr.nameChars rfl)

theorem read_controller (hr : r.Valid) (hoperation : isIdentifier operation.toList = true) :
    relativeImports (operationFileOf r .controller operation payload) =
        [⟨none, (Origin.beside validatorsDirectory
          (fileStem operation (moduleNames r.moduleName))).render⟩,
        ⟨some (serviceName operation (moduleNames r.moduleName)), (Origin.beside servicesDirectory
          (fileStem operation (moduleNames r.moduleName))).render⟩] ∧
      exportOf (operationFileOf r .controller operation payload) =
        some (controllerName operation (moduleNames r.moduleName)) := by
  have hread := read_handler (f := operationFileOf r .controller operation payload)
    (h := controller operation (moduleNames r.moduleName) payload.fields r.framework) rfl
    (by simp [controller])
    (isReadable_controller hoperation hr.nameChars payload.fields r.framework)
    (isIdentifier_functionName hoperation hr.nameChars rfl)
  refine ⟨hread.1.trans ?_, hread.2⟩
  -- the import from the framework is from a package
  cases r.framework with
  | express => rfl
  | hono => rfl

theorem relativeImports_validator (hr : r.Valid)
    (hoperation : isIdentifier operation.toList = true) :
    relativeImports (operationFileOf r .validator operation payload) =
      [⟨none, (Origin.beside typesDirectory
        (fileStem operation (moduleNames r.moduleName))).render⟩] :=
  read_validator (v := validator operation (moduleNames r.moduleName) payload.fields) rfl
    (by simp [validator]) (isReadable_validator hoperation hr.nameChars payload.fields)

theorem read_routesFile (hr : r.Valid) {operations : List String}
    (hoperations : ∀ o ∈ operations, isIdentifier o.toList = true) :
    relativeImports (routesFile r operations) = operations.map (fun o =>
        ⟨some (controllerName o (moduleNames r.moduleName)), (Origin.below controllersDirectory
          (fileStem o (moduleNames r.moduleName))).render⟩) ∧
      registrationsOf (routesFile r operations) = operations.map (fun o =>
        ⟨Route.ofOperation o, controllerName o (moduleNames r.moduleName)⟩) := by
  have hread := read_routes (f := routesFile r operations)
    (r := routes operations (moduleNames r.moduleName) r.framework) rfl (by simp [routes])
    (isReadable_routes hoperations hr.nameChars r.framework)
    (isReadable_registration hoperations hr.nameChars r.framework)
  refine ⟨hread.1.trans ?_, hread.2⟩
  have hrouter : (routerImport r.framework).origin.isRelative = false := by
    cases r.framework with
    | express => rfl
    | hono => rfl
  have hbelow : (operations.map fun o => (⟨.whole (controllerName o (moduleNames r.moduleName)),
      .below controllersDirectory (fileStem o (moduleNames r.moduleName))⟩ : Import)).filter
        (·.origin.isRelative) = _ := List.filter_eq_self.mpr (by simp [Origin.isRelative])
  rw [routes, List.filter_cons_of_neg (by simp [hrouter]), hbelow, List.map_map]
  rfl

/-! ## Links between planned files -/

/-- Files in different directories have different paths. -/
theorem pathBelow_names_ne {role role' : Role} (h : role.directory? ≠ role'.directory?)
    (base : Path) (o o' : String) (names : ModuleNames) :
    pathBelow base (role.names o names) ≠ pathBelow base (role'.names o' names) := by
  intro heq
  have hnames : role.names o names = role'.names o' names :=
    List.append_cancel_left (congrArg Path.parts heq)
  -- a directory more makes the way longer
  cases hrole : role.directory? with
  | none =>
    cases hrole' : role'.directory? with
    | none => exact h (hrole.trans hrole'.symm)
    | some directory' => simp [Role.names, hrole, hrole'] at hnames
  | some directory =>
    cases hrole' : role'.directory? with
    | none => simp [Role.names, hrole, hrole'] at hnames
    | some directory' =>
      simp only [Role.names, hrole, hrole', List.cons.injEq] at hnames
      rw [hrole, hrole', hnames.1] at h
      exact h rfl

section Links

variable (hr : r.Valid) (hoperation : isIdentifier operation.toList = true)

include hr hoperation

theorem isFileName_stem : IsFileName (fileStem operation (moduleNames r.moduleName) ++ ".ts") :=
  isFileName_operation (slashFree_of_declarable (isDeclarable_of_isIdentifier hoperation))
    (slashFree_file hr.nameChars)

/-- From a file with one role to the one with another role beside it. -/
theorem target_beside (payload : Payload) (role role' : Role) {directory directory' : String}
    (hrole : role.directory? = some directory) (hrole' : role'.directory? = some directory')
    (hdirectory' : IsFileName directory') (whole? : Option String) :
    target (operationFileOf r role operation payload)
        ⟨whole?, (Origin.beside directory'
          (fileStem operation (moduleNames r.moduleName))).render⟩ =
      r.modulePath.join (role'.path operation (moduleNames r.moduleName)) := by
  have hslash := slashFree_of_declarable (isDeclarable_of_isIdentifier hoperation)
  rw [target, path_operationFileOf hr role hoperation, join_path hr role' hslash, Role.names,
    Role.names, hrole, hrole']
  exact follow_beside hdirectory' (isFileName_stem hr hoperation) _ _ _

/-- From the routes to a controller. -/
theorem target_below (operations : List String) (whole? : Option String) :
    target (routesFile r operations) ⟨whole?, (Origin.below controllersDirectory
        (fileStem operation (moduleNames r.moduleName))).render⟩ =
      r.modulePath.join (Role.controller.path operation (moduleNames r.moduleName)) := by
  have hslash := slashFree_of_declarable (isDeclarable_of_isIdentifier hoperation)
  have hcontrollers : IsFileName controllersDirectory := ⟨by decide, by decide⟩
  rw [target, path_routesFile, join_path hr .routes slashFree_empty,
    join_path hr .controller hslash]
  exact follow_below hcontrollers (isFileName_stem hr hoperation) _ _

end Links

theorem resolves_of_operation (hr : r.Valid) (hpresent : present collected ≠ [])
    {found : String × Payload} (hfound : found ∈ present collected)
    (hoperation : isIdentifier found.1.toList = true) {role : Role}
    (hrole : role ∈ operationRoles) :
    ∀ i ∈ relativeImports (operationFileOf r role found.1 found.2),
      Resolves r collected (operationFileOf r role found.1 found.2) i := by
  have hplanned : ∀ role' ∈ operationRoles,
      operationFileOf r role' found.1 found.2 ∈ plannedFiles r collected := fun role' hrole' =>
    (mem_plannedFiles_iff hpresent).mpr (.inl ⟨found, hfound, role', hrole', rfl⟩)
  have hne : ∀ {role' : Role}, role'.directory? ≠ role.directory? →
      (operationFileOf r role' found.1 found.2).path ≠
        (operationFileOf r role found.1 found.2).path := by
    intro role' hdirectory
    rw [path_operationFileOf hr role' hoperation, path_operationFileOf hr role hoperation]
    exact pathBelow_names_ne hdirectory _ _ _ _
  have htypes : IsFileName typesDirectory := ⟨by decide, by decide⟩
  have hservices : IsFileName servicesDirectory := ⟨by decide, by decide⟩
  have hvalidators : IsFileName validatorsDirectory := ⟨by decide, by decide⟩
  intro i hi
  simp only [operationRoles, List.mem_cons, List.not_mem_nil, or_false] at hrole
  rcases hrole with rfl | rfl | rfl
  · -- a service imports the types of its operation, which are the author's own file
    rw [(read_service hr hoperation).1, List.mem_singleton] at hi
    subst hi
    have htarget := target_beside hr hoperation found.2 .service .types rfl rfl htypes none
    exact .inr ⟨rfl, found, hfound, htarget.symm⟩
  · -- a controller imports two planned files, one of them by its default
    rw [(read_controller hr hoperation).1, List.mem_cons, List.mem_singleton] at hi
    rcases hi with rfl | rfl
    · have htarget :=
        target_beside hr hoperation found.2 .controller .validator rfl rfl hvalidators none
      refine .inl ⟨operationFileOf r .validator found.1 found.2, hplanned _ (by decide),
        htarget.symm, hne (by decide), ?_⟩
      rintro name ⟨⟩
    · have htarget := target_beside hr hoperation found.2 .controller .service rfl rfl hservices
        (some (serviceName found.1 (moduleNames r.moduleName)))
      refine .inl ⟨operationFileOf r .service found.1 found.2, hplanned _ (by decide),
        htarget.symm, hne (by decide), ?_⟩
      rintro name ⟨⟩
      exact (read_service hr hoperation).2
  · rw [relativeImports_validator hr hoperation, List.mem_singleton] at hi
    subst hi
    have htarget := target_beside hr hoperation found.2 .validator .types rfl rfl htypes none
    exact .inr ⟨rfl, found, hfound, htarget.symm⟩

theorem resolves_of_routes (hr : r.Valid) (hpresent : present collected ≠ [])
    (hoperations : ∀ o ∈ presentNames collected, isIdentifier o.toList = true) :
    ∀ i ∈ relativeImports (routesFile r (presentNames collected)),
      Resolves r collected (routesFile r (presentNames collected)) i := by
  intro i hi
  rw [(read_routesFile hr hoperations).1] at hi
  obtain ⟨o, ho, rfl⟩ := List.mem_map.mp hi
  obtain ⟨found, hfound, rfl⟩ := List.mem_map.mp ho
  have hoperation := hoperations found.1 ho
  have hplanned : operationFileOf r .controller found.1 found.2 ∈ plannedFiles r collected :=
    (mem_plannedFiles_iff hpresent).mpr (.inl ⟨found, hfound, .controller, by decide, rfl⟩)
  have htarget := target_below hr hoperation (presentNames collected)
    (some (controllerName found.1 (moduleNames r.moduleName)))
  refine .inl ⟨_, hplanned, htarget.symm, ?_, ?_⟩
  · rw [path_operationFileOf hr .controller hoperation, path_routesFile,
      join_path hr .routes slashFree_empty]
    exact pathBelow_names_ne (by decide) _ _ _ _
  · rintro name ⟨⟩
    exact (read_controller hr hoperation).2

/-- One of the planned files holds the routes. -/
theorem filter_routes (hpresent : present collected ≠ []) :
    (plannedFiles r collected).filter (·.role = .routes) =
      [routesFile r (presentNames collected)] := by
  have hothers : ((present collected).flatMap fun found => operationRoles.map fun role =>
      operationFileOf r role found.1 found.2).filter (·.role = .routes) = [] := by
    rw [List.filter_eq_nil_iff]
    intro f hf
    obtain ⟨found, -, hf⟩ := List.mem_flatMap.mp hf
    obtain ⟨role, hrole, rfl⟩ := List.mem_map.mp hf
    have hne : role ≠ .routes := ne_of_mem_of_not_mem hrole (by decide)
    simp [operationFileOf, hne]
  rw [plannedFiles_eq hpresent, List.filter_append, hothers]
  rfl

end Planned

/-- **The files of a module link up.** For every valid request for operations whose
names are identifiers, and every assignment of payloads that leaves an operation
present, the planned files import each other by the right places and names, and the
file of routes imports and registers each present operation once, in order. -/
theorem planned_linked {r : Request} (hr : r.Valid)
    (hoperations : ∀ o ∈ r.operations, isIdentifier o.toList = true)
    (payloads : String → Option Payload) (hsome : ∃ o ∈ r.operations, payloads o ≠ none) :
    Linked r (r.operations.map fun o => (o, payloads o)) := by
  generalize hassigned : (r.operations.map fun o => (o, payloads o)) = collected
  have hordered : (presentNames collected).Sublist r.operations := by
    have hsublist := map_fst_present collected
    rwa [← hassigned, List.map_map, show (Prod.fst ∘ fun o => (o, payloads o)) = id from rfl,
      List.map_id, hassigned] at hsublist
  have hpresent : present collected ≠ [] := by
    obtain ⟨o, ho, hpayload⟩ := hsome
    obtain ⟨payload, hpayload⟩ := Option.ne_none_iff_exists'.mp hpayload
    refine List.ne_nil_of_mem (a := (o, payload)) (List.mem_filterMap.mpr ⟨(o, payloads o), ?_, ?_⟩)
    · rw [← hassigned]
      exact List.mem_map_of_mem ho
    · rw [hpayload]
      rfl
  have hidentifiers : ∀ o ∈ presentNames collected, isIdentifier o.toList = true :=
    fun o ho => hoperations o (hordered.subset ho)
  have hnodup : (presentNames collected).Nodup := hr.nodup.sublist hordered
  obtain ⟨himports, hregistrations⟩ := read_routesFile hr hidentifiers
  refine ⟨fun f hf => ?_, fun f hf hrole => ?_, hordered,
    routesFile r (presentNames collected), filter_routes hpresent, ?_, hregistrations, ?_, ?_⟩
  · rcases (mem_plannedFiles_iff hpresent).mp hf with ⟨found, hfound, role, hrole, rfl⟩ | rfl
    · have hoperation := hidentifiers found.1 (List.mem_map_of_mem hfound)
      exact resolves_of_operation hr hpresent hfound hoperation hrole
    · exact resolves_of_routes hr hpresent hidentifiers
  · rcases (mem_plannedFiles_iff hpresent).mp hf with ⟨found, hfound, role, -, rfl⟩ | rfl
    · obtain rfl : role = .controller := hrole
      have hoperation := hidentifiers found.1 (List.mem_map_of_mem hfound)
      rw [(read_controller hr hoperation).1]
      rfl
    · exact absurd hrole (by simp [routesFile])
  · rw [himports, List.map_map]
    rfl
  · rw [hregistrations, List.map_map]
    exact hnodup.map_on fun a ha b hb h => ofOperation_inj (hidentifiers a ha) (hidentifiers b hb) h
  · rw [hregistrations, List.map_map]
    exact hnodup.map_on fun a _ b _ h => functionName_inj h

/-- A known operation beside operations of the author's own. -/
def mixedRequest : Request :=
  ⟨"user-profile", ⟨.here, ["apis", "users"]⟩, ⟨.custom, ["$x_1", "get", "list"]⟩, false, .express,
    false⟩

/-- No listing. -/
def mixedPayloads (operation : String) : Option Payload :=
  if operation = "list" then none else some ⟨[⟨"id", false, "string", some 1⟩], operation⟩

theorem valid_mixedRequest : mixedRequest.Valid where
  name := by decide +kernel
  apiType := by
    refine ⟨by decide, ?_⟩
    simp [operationsRefusal?, Check.repeated, mixedRequest]
    decide

/-- The two operations that are present are linked in their order. -/
theorem linked_mixedRequest :
    Linked mixedRequest (mixedRequest.operations.map fun o => (o, mixedPayloads o)) ∧
      presentNames (mixedRequest.operations.map fun o => (o, mixedPayloads o)) = ["$x_1", "get"] :=
  ⟨planned_linked valid_mixedRequest (by decide) mixedPayloads ⟨"get", by decide, by decide⟩,
    by decide⟩

end Stencil.Module
