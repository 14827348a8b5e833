import Mathlib.Data.List.Pairwise
import Stencil.Config.Audit
import Stencil.Proofs.Module.Shared

/-!
# Stencil — what checked settings guarantee

A check of settings that finds nothing wrong makes sure that no two modules have
the same directory. The files of a module lie in its directory and one level
deeper, so this leaves one way for two modules to come to a file: the directory of
one is a directory that the other keeps its files in, and the names agree.

Main results:

* `loadFrom_valid` — the modules of loaded settings have gone through their checks;
* `distinct_of_auditModules` — no two of them have one directory;
* `audit_shares_iff` — when two modules of checked settings share a file.
-/

namespace Stencil

open Stencil.Check Stencil.Disk

/-! ## Loaded settings -/

/-- A module as it comes out of its checks. -/
structure ModuleEntry.Valid (e : ModuleEntry) : Prop where
  name : Naming.checkModuleName e.name = .ok e.name
  apiType : e.apiType.Valid

namespace Check

/-- The items that were read are those that were given, one by one. -/
theorem forall₂_of_itemsFrom {α : Type} {read : Data → Checked α} {index : Nat}
    {ds : List Data} {as : List α} (h : itemsFrom read index ds = .ok as) :
    List.Forall₂ (fun d a => read d = .ok a) ds as := by
  induction ds generalizing index as with
  | nil =>
    obtain rfl := Except.ok.inj h
    exact .nil
  | cons d rest ih =>
    rw [itemsFrom] at h
    split at h
    · rename_i a as' hboth
      obtain rfl := Except.ok.inj h
      obtain ⟨hfirst, hrest⟩ := both_eq_ok hboth
      have hread : read d = .ok a := by
        cases hd : read d with
        | ok a' => simpa [hd, under] using hfirst
        | error faults => simp [hd, under] at hfirst
      exact .cons hread (ih hrest)
    · simp at h

/-- Every item that was read comes from one that was given. -/
theorem mem_of_itemsFrom {α : Type} {read : Data → Checked α} {index : Nat} {ds : List Data}
    {as : List α} (h : itemsFrom read index ds = .ok as) : ∀ a ∈ as, ∃ d, read d = .ok a := by
  have hforall := forall₂_of_itemsFrom h
  clear h
  induction hforall with
  | nil => simp
  | cons hread _ ih =>
    intro b hb
    rcases List.mem_cons.mp hb with rfl | hb
    · exact ⟨_, hread⟩
    · exact ih b hb

theorem mem_of_readItems {α : Type} {problem : Problem} {read : Data → Checked α} {d : Data}
    {as : List α} (h : readItems problem read d = .ok as) : ∀ a ∈ as, ∃ d, read d = .ok a := by
  rw [readItems] at h
  split at h
  · exact mem_of_itemsFrom h
  · simp [refuse] at h

end Check

theorem ModuleEntry.read_valid {d : Data} {e : ModuleEntry} (h : ModuleEntry.read d = .ok e) :
    e.Valid := by
  cases d with
  | record entries =>
    rw [ModuleEntry.read] at h
    split at h
    · rename_i name path? apiType hboth
      obtain rfl := Except.ok.inj h
      obtain ⟨hname, hboth⟩ := both_eq_ok hboth
      obtain ⟨-, hapiType⟩ := both_eq_ok hboth
      constructor
      · rcases field_eq_ok hname with ⟨d, hd⟩ | hdefault
        · exact readModuleName_eq_ok hd
        · simp at hdefault
      · rcases field_eq_ok hapiType with ⟨d, hd⟩ | hdefault
        · exact ApiType.read_valid hd
        · exact Option.some.inj hdefault ▸ ApiType.crud_valid
    · simp at h
  | _ => simp [ModuleEntry.read, refuse] at h

theorem readModules_valid {d : Data} {modules : List ModuleEntry}
    (h : readModules d = .ok modules) : ∀ e ∈ modules, e.Valid := by
  rw [readModules] at h
  split at h
  · simp at h
  · rename_i items hitems
    split at h
    · obtain rfl := Except.ok.inj h
      intro e he
      obtain ⟨d, hd⟩ := mem_of_readItems hitems e he
      exact ModuleEntry.read_valid hd
    · simp [refuse] at h

theorem Settings.ofEntries_valid {entries : List (Data × Data)} {s : Settings}
    (h : Settings.ofEntries entries = .ok s) : ∀ e ∈ s.modules, e.Valid := by
  rw [Settings.ofEntries] at h
  split at h
  · rename_i hboth
    obtain rfl := Except.ok.inj h
    obtain ⟨-, hboth⟩ := both_eq_ok hboth
    obtain ⟨-, hboth⟩ := both_eq_ok hboth
    obtain ⟨-, hboth⟩ := both_eq_ok hboth
    obtain ⟨-, hmodules⟩ := both_eq_ok hboth
    rcases field_eq_ok hmodules with ⟨d, hd⟩ | hdefault
    · exact readModules_valid hd
    · obtain rfl := Option.some.inj hdefault
      simp
  · simp at h

/-- **The modules of settings that were read** have gone through their checks. -/
theorem Settings.ofData_valid {d : Data} {s : Settings} (h : Settings.ofData d = .ok s) :
    ∀ e ∈ s.modules, e.Valid := by
  cases d with
  | record entries =>
    have hchecked : Settings.ofEntries entries = .ok s := by
      cases hentries : Settings.ofEntries entries with
      | ok settings => simpa [Settings.ofData, hentries] using h
      | error faults => simp [Settings.ofData, hentries] at h
    exact Settings.ofEntries_valid hchecked
  | _ => simp [Settings.ofData, refuse] at h

namespace Config

open Work

variable {w w' : World} {s : Settings} {path root : Path}

theorem settingsOf_valid {d : Data} (h : settingsOf path d = .ok s) : ∀ e ∈ s.modules, e.Valid := by
  have hchecked : ∀ {d' : Data}, ((Settings.ofData d').mapError fun report =>
      Failure.config (.invalid report)) = .ok s → ∀ e ∈ s.modules, e.Valid := by
    intro d' hd'
    exact Settings.ofData_valid (mapError_eq_ok.mp hd')
  cases d with
  | null =>
    rw [settingsOf] at h
    exact hchecked h
  | record entries =>
    rw [settingsOf] at h
    exact hchecked h
  | _ => simp [settingsOf] at h

theorem loadFrom_valid (h : (loadFrom path).runIn w = (.ok s, w')) : ∀ e ∈ s.modules, e.Valid := by
  rw [loadFrom] at h
  obtain ⟨isThere, w₁, -, h⟩ := runIn_bind_ok h
  split at h
  · obtain ⟨_, w₂, -, h⟩ := runIn_bind_ok h
    obtain ⟨text, w₃, -, h⟩ := runIn_bind_ok h
    obtain ⟨d, w₄, -, h⟩ := runIn_bind_ok h
    obtain ⟨settings, w₅, hsettings, h⟩ := runIn_bind_ok h
    obtain ⟨_, w₆, -, h⟩ := runIn_bind_ok h
    obtain ⟨hs, -⟩ := Prod.mk.inj h
    obtain rfl := Except.ok.inj hs
    exact settingsOf_valid (runIn_ofExcept_eq_ok hsettings).1
  · simp at h

/-! ## Directories -/

section Directories

variable {seen : List (Path × String)} {entries : List ModuleEntry} {problems : List Problem}
  {warnings : List Warning} {e e' : ModuleEntry}

/-- Two modules do not resolve to one directory. -/
def Distinct (d : Disk) (s : Settings) (root : Path) (e e' : ModuleEntry) : Prop :=
  ∀ directory, d.resolve (s.directory root e) = .ok directory →
    d.resolve (s.directory root e') ≠ .ok directory

theorem Distinct.symm {d : Disk} (h : Distinct d s root e e') : Distinct d s root e' e :=
  fun directory he' he => h directory he he'

instance (d : Disk) : Std.Symm (Distinct d s root) := ⟨fun _ _ h => h.symm⟩

/-- Without a problem, a directory is not among those seen before. -/
theorem notMem_of_collision? {directory : Path} {name : String}
    (h : ((collision? seen directory name).map Problem.collision).toList = []) :
    ∀ earlier, (directory, earlier) ∉ seen := by
  intro earlier hmem
  have hsome : (seen.lookup directory).isSome = true := by
    rw [List.lookup_isSome_iff]
    exact ⟨(directory, earlier), hmem, by simp⟩
  obtain ⟨found, hfound⟩ := Option.isSome_iff_exists.mp hsome
  simp [collision?, hfound] at h

/-- **A check without problems**: no module has the directory of one before it. -/
theorem distinct_of_auditModules
    (h : (auditModules s root seen entries).runIn w = (.ok (problems, warnings), w'))
    (hproblems : problems = []) :
    w' = w ∧ entries.Pairwise (Distinct w.disk s root) ∧
      ∀ e ∈ entries, ∀ directory, w.disk.resolve (s.directory root e) = .ok directory →
        ∀ earlier, (directory, earlier) ∉ seen := by
  -- on the modules; each one is seen by those after it
  induction entries generalizing seen problems warnings with
  | nil =>
    obtain ⟨-, hworld⟩ := Prod.mk.inj h
    exact ⟨hworld.symm, .nil, by simp⟩
  | cons e rest ih =>
    rw [auditModules] at h
    obtain ⟨directory, w₁, hresolve, hthen⟩ := runIn_bind_ok h
    obtain ⟨hdirectory, rfl⟩ := runIn_resolve_eq_ok hresolve
    obtain ⟨isThere, w₂, hthere, hthen⟩ := runIn_bind_ok hthen
    rw [runIn_isDirectory?] at hthere
    obtain ⟨-, rfl⟩ := Prod.mk.inj hthere
    obtain ⟨⟨problems', warnings'⟩, w₃, hrest, hthen⟩ := runIn_bind_ok hthen
    obtain ⟨hresult, rfl⟩ := Prod.mk.inj hthen
    obtain ⟨hall, -⟩ := Prod.mk.inj (Except.ok.inj hresult)
    rw [hproblems] at hall
    obtain ⟨hfirst, hothers⟩ := List.append_eq_nil_iff.mp hall
    obtain ⟨hworld, hpairs, hunseen⟩ := ih hrest hothers
    refine ⟨hworld, List.pairwise_cons.mpr ⟨fun e' he' found hfound hagain => ?_, hpairs⟩, ?_⟩
    · obtain rfl := Except.ok.inj (hdirectory.symm.trans hfound)
      exact hunseen e' he' _ hagain e.name List.mem_cons_self
    · intro e' he' found hfound earlier hmem
      rcases List.mem_cons.mp he' with rfl | he'
      · obtain rfl := Except.ok.inj (hdirectory.symm.trans hfound)
        exact notMem_of_collision? hfirst earlier hmem
      · exact hunseen e' he' found hfound earlier (List.mem_cons_of_mem _ hmem)

/-- What a check says of settings that it has loaded. -/
theorem auditSettings_valid {a : Audit}
    (h : (auditSettings path s).runIn w = (.ok a, w')) (hvalid : a.isValid = true) :
    w' = w ∧ a.path? = some path ∧ a.settings? = some s ∧
      ∃ root, (projectRoot path).runIn w = (.ok root, w) ∧
        s.modules.Pairwise (Distinct w.disk s root) := by
  rw [auditSettings] at h
  obtain ⟨root, w₁, hroot, hthen⟩ := runIn_bind_ok h
  obtain ⟨-, rfl⟩ := runIn_resolve_eq_ok hroot
  obtain ⟨⟨problems, warnings⟩, w₂, hmodules, hthen⟩ := runIn_bind_ok hthen
  obtain ⟨hresult, rfl⟩ := Prod.mk.inj hthen
  obtain rfl := Except.ok.inj hresult
  have hproblems : problems = [] := by
    rw [Audit.isValid, Bool.and_eq_true] at hvalid
    exact List.isEmpty_iff.mp hvalid.1
  obtain ⟨hworld, hpairs, -⟩ := distinct_of_auditModules hmodules hproblems
  exact ⟨hworld, rfl, rfl, root, hroot, hpairs⟩

/-- What settings are like after a check that finds nothing wrong: their modules
have gone through their checks and lie in different directories. -/
structure IsChecked (w : World) (path : Path) (s : Settings) : Prop where
  entries : ∀ e ∈ s.modules, e.Valid
  distinct : ∃ root, (projectRoot path).runIn w = (.ok root, w) ∧
    s.modules.Pairwise (Distinct w.disk s root)

theorem auditFile_valid {a : Audit} (h : (auditFile path).runIn w = (.ok a, w'))
    (hvalid : a.isValid = true) :
    ∃ path s, a.path? = some path ∧ a.settings? = some s ∧ IsChecked w' path s := by
  rw [auditFile] at h
  obtain ⟨loaded, w₁, hload, hthen⟩ := runIn_bind_ok h
  rw [runIn_outcome] at hload
  obtain ⟨hloaded, rfl⟩ := Prod.mk.inj hload
  obtain rfl := Except.ok.inj hloaded
  split at hthen
  · rename_i s hs
    obtain ⟨rfl, hpath, hsettings, hdistinct⟩ := auditSettings_valid hthen hvalid
    exact ⟨path, s, hpath, hsettings, loadFrom_valid (Prod.ext hs rfl), hdistinct⟩
  · obtain ⟨hresult, -⟩ := Prod.mk.inj hthen
    obtain rfl := Except.ok.inj hresult
    simp [Audit.isValid] at hvalid
  · simp at hthen

/-- **What a check makes sure of**, if nothing is wrong, of a given file or of the
nearest one. -/
theorem audit_valid {path? : Option Path} {a : Audit}
    (h : (audit path?).runIn w = (.ok a, w')) (hvalid : a.isValid = true) :
    ∃ path s, a.path? = some path ∧ a.settings? = some s ∧ IsChecked w' path s := by
  cases path? with
  | some path => exact auditFile_valid h hvalid
  | none =>
    unfold audit at h
    obtain ⟨found?, w₁, -, hthen⟩ := runIn_bind_ok h
    cases found? with
    | none =>
      obtain ⟨hresult, -⟩ := Prod.mk.inj hthen
      obtain rfl := Except.ok.inj hresult
      simp [Audit.isValid] at hvalid
    | some path => exact auditFile_valid hthen hvalid

end Directories

/-! ## Requests for configured modules -/

section Requests

variable {e e' : ModuleEntry} {overrides : List (Data × Data)} {r r' : Request}

/-- A request is made for the directory of the module, unless another one is
asked for. -/
theorem request_eq_ok (he : e.Valid)
    (hoverrides : ∀ o ∈ overrides, o.1.isText "module_path" = false)
    (h : (s.request root overrides e).runIn w = (.ok r, w')) :
    w' = w ∧ w.disk.resolve (s.directory root e) = .ok r.modulePath ∧ r.Valid := by
  rw [Settings.request] at h
  obtain ⟨directory, w₁, hresolve, hthen⟩ := runIn_bind_ok h
  obtain ⟨hdirectory, rfl⟩ := runIn_resolve_eq_ok hresolve
  obtain ⟨hread, rfl⟩ := runIn_ofExcept_eq_ok hthen
  refine ⟨rfl, ?_, Request.ofData_valid he.apiType hread⟩
  rw [hdirectory]
  -- no entry names the directory, so it is the one of the module
  have hlookup : Data.lookup? "module_path"
      ((.text "module_name", .text e.name) :: overrides.filter (!·.2.isNull)) = none := by
    rw [Data.lookup?, Option.map_eq_none_iff, List.find?_eq_none]
    intro o ho
    rw [List.mem_reverse, List.mem_cons, List.mem_filter] at ho
    rcases ho with rfl | ⟨ho, -⟩
    · show ¬ ("module_name" == "module_path") = true
      decide
    · simp [hoverrides o ho]
  rw [Request.ofName, Request.ofData] at hread
  split at hread
  · rename_i hboth
    obtain rfl := Except.ok.inj hread
    obtain ⟨-, hboth⟩ := both_eq_ok hboth
    obtain ⟨hpath, -⟩ := both_eq_ok hboth
    obtain rfl := Except.ok.inj ((field_of_lookup_none hlookup).symm.trans hpath)
    rfl
  · simp at hread

/-- **Modules of checked settings share a file** in one case only: the routes of one
of them lie among the services, controllers, validators or types of the other. -/
theorem audit_shares_iff {w₁ w₂ w₃ w₄ : World} {path? : Option Path} {a : Audit}
    (haudit : (audit path?).runIn w = (.ok a, w₁)) (hvalid : a.isValid = true)
    (hpath : a.path? = some path) (hsettings : a.settings? = some s)
    (hroot : (projectRoot path).runIn w₁ = (.ok root, w₂))
    (he : e ∈ s.modules) (he' : e' ∈ s.modules) (hne : e ≠ e')
    (hoverrides : ∀ o ∈ overrides, o.1.isText "module_path" = false)
    (hr : (s.request root overrides e).runIn w₂ = (.ok r, w₃))
    (hr' : (s.request root overrides e').runIn w₃ = (.ok r', w₄)) :
    (∃ p, Module.CanWrite r p ∧ (Module.CanWrite r' p ∨ Module.CanRead r' p)) ↔
      (∃ role ∈ .types :: Module.operationRoles, Module.RoutesAmong role r r') ∨
        ∃ role ∈ Module.operationRoles, Module.RoutesAmong role r' r := by
  obtain ⟨path', s', hpath', hsettings', hentries, root', hroot', hpairs⟩ :=
    audit_valid haudit hvalid
  obtain rfl := Option.some.inj (hpath.symm.trans hpath')
  obtain rfl := Option.some.inj (hsettings.symm.trans hsettings')
  obtain ⟨hsame, rfl⟩ := Prod.mk.inj (hroot.symm.trans hroot')
  obtain rfl := Except.ok.inj hsame
  obtain ⟨rfl, hdirectory, hrvalid⟩ := request_eq_ok (hentries e he) hoverrides hr
  obtain ⟨rfl, hdirectory', hrvalid'⟩ := request_eq_ok (hentries e' he') hoverrides hr'
  have hdistinct : Distinct w₄.disk s root e e' :=
    hpairs.forall he he' hne
  refine Module.shares_iff hrvalid hrvalid' fun hequal => ?_
  exact hdistinct _ hdirectory (hequal ▸ hdirectory')

end Requests

/-- A module called `routes`, and another one in the directory for its services. -/
private def outerEntry : ModuleEntry :=
  ⟨"routes", some "apis", .crud⟩

private def innerEntry : ModuleEntry :=
  ⟨"list", some "apis/services", .crud⟩

private def nestedSource : String :=
  "modules:\n- \x7bname: routes, path: apis\x7d\n- \x7bname: list, path: apis/services\x7d\n"

private def nestedSettings : Settings :=
  ⟨1, .express, Settings.usualApisDirectory, false, [outerEntry, innerEntry]⟩

private def nestedPath : Path :=
  ⟨.here, ["crudgen.yml"]⟩

private def nestedWorld : World :=
  World.ofDisk <| Disk.empty ["w"]
    |>.put ["crudgen.yml", "w"] (.file (Module.bytesOf nestedSource) newFileMode)

private def outerRequest : Request :=
  ⟨"routes", ⟨.root, ["w", "apis"]⟩, .crud, false, .express, false⟩

private def innerRequest : Request :=
  ⟨"list", ⟨.root, ["w", "apis", "services"]⟩, .crud, false, .express, false⟩

/-- Nothing is wrong with these settings, and a service of one module is the file
with the routes of the other. -/
theorem nested_shares :
    ∃ a, (audit (some nestedPath)).runIn nestedWorld = (.ok a, nestedWorld) ∧ a.isValid = true ∧
      ∃ p, Module.CanWrite outerRequest p ∧
        (Module.CanWrite innerRequest p ∨ Module.CanRead innerRequest p) := by
  have haudit : (audit (some nestedPath)).runIn nestedWorld =
      (.ok ⟨some nestedPath, some nestedSettings, [],
        [.noDirectory "routes" "apis", .noDirectory "list" "apis/services"]⟩, nestedWorld) := by
    decide +kernel
  refine ⟨_, haudit, by decide, ?_⟩
  have hroot : (projectRoot nestedPath).runIn nestedWorld = (.ok ⟨.root, ["w"]⟩, nestedWorld) :=
    rfl
  have houter : (nestedSettings.request ⟨.root, ["w"]⟩ [] outerEntry).runIn nestedWorld =
      (.ok outerRequest, nestedWorld) :=
    rfl
  have hinner : (nestedSettings.request ⟨.root, ["w"]⟩ [] innerEntry).runIn nestedWorld =
      (.ok innerRequest, nestedWorld) :=
    rfl
  refine (audit_shares_iff haudit (by decide) rfl rfl hroot List.mem_cons_self (by decide)
    (by decide) (by simp) houter hinner).mpr ?_
  exact .inr ⟨.service, by decide, ⟨_, rfl, rfl⟩, by decide +kernel, by decide +kernel⟩

end Config

end Stencil
