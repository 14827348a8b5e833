import Mathlib.Data.List.Nodup
import Stencil.Proofs.Config.Audit
import Stencil.Proofs.Config.Directory
import Stencil.Proofs.Disk.Resolve
import Stencil.Proofs.Request.Overrides

/-!
# Stencil — requests for the modules of accepted settings

Data that are accepted as settings give one module for each item of their list, under the
name written there without the blanks around it, and no two modules have one name. A
request for such a module passes its own checks, which are not those of the settings, with
the values of the entry as they are. What it can still fail by is the directory: one that
leads into a loop of links.

Main results:

* `Settings.request_runIn` — the request for an entry;
* `Settings.ofData_readFrom` — the modules of accepted data;
* `accepted_requests` — which requests they give.
-/

namespace Stencil

open Stencil.Check Stencil.Disk

/-! ## Requests for entries -/

section Entries

variable {s : Settings} {root p : Path} {o : Request.Overrides} {e : ModuleEntry} {w : World}
  {entries : List (Data × Data)}

/-- The request for an entry whose directory is known. -/
def ModuleEntry.request (e : ModuleEntry) (s : Settings) (o : Request.Overrides) (p : Path) :
    Request :=
  ⟨e.name, p, o.apiType?.getD e.apiType, o.isAppend?.getD s.isAppend,
    o.framework?.getD s.framework, o.isDryRun?.getD false⟩

theorem Settings.request_of_saidBy (hname : Naming.checkModuleName e.name = .ok e.name)
    (hapiType : ∀ t ∈ o.apiType?, t.Valid) (hsaid : o.SaidBy entries) :
    s.request root entries e =
      (Work.resolve (s.directory root e) >>= fun p => pure (e.request s o p)) := by
  rw [request, resolvedDirectory]
  congr 1
  funext p
  have hplaced : (s.defaults p e.apiType).modulePath? = some p := rfl
  rw [Request.ofName_of_saidBy hname hplaced hapiType hsaid]
  rfl

theorem Settings.request_eq (hname : Naming.checkModuleName e.name = .ok e.name)
    (hapiType : ∀ t ∈ o.apiType?, t.Valid) :
    s.request root o.entries e =
      (Work.resolve (s.directory root e) >>= fun p => pure (e.request s o p)) :=
  Settings.request_of_saidBy hname hapiType o.saidBy_entries

/-- **The request for an entry** lies in the directory of its module; the overrides
count more than what the entry and the settings say. -/
theorem Settings.request_runIn (hname : Naming.checkModuleName e.name = .ok e.name)
    (hapiType : ∀ t ∈ o.apiType?, t.Valid) (hp : w.disk.resolve (s.directory root e) = .ok p) :
    (s.request root o.entries e).runIn w = (.ok (e.request s o p), w) := by
  rw [Settings.request_eq hname hapiType, Work.runIn_bind, Work.runIn_resolve, hp]
  rfl

end Entries

/-! ## Modules of accepted data -/

/-- The items of data that the modules of settings are read from. -/
def Data.moduleItems : Data → List Data
  | .record entries => ((Data.lookup? "modules" entries).bind itemsOf?).getD []
  | _ => []

/-- An entry that was read from an item, under the name given there without the blanks
around it. -/
structure ModuleEntry.ReadFrom (item : Data) (e : ModuleEntry) : Prop where
  read : ModuleEntry.read item = .ok e
  named : ∃ entries value given, item = .record entries ∧
    Data.lookup? "name" entries = some value ∧ readText value = .ok given ∧
    Text.strip given = e.name

section Accepted

variable {d item : Data} {e : ModuleEntry} {s : Settings} {modules : List ModuleEntry}

theorem ModuleEntry.readFrom_of_read (h : ModuleEntry.read item = .ok e) : e.ReadFrom item := by
  refine ⟨h, ?_⟩
  cases item with
  | record entries =>
    rw [ModuleEntry.read] at h
    split at h
    · rename_i name path? apiType hboth
      obtain rfl := Except.ok.inj h
      obtain ⟨hname, -⟩ := both_eq_ok hboth
      rcases field_cases hname with ⟨value, hvalue, hread⟩ | ⟨-, hdefault⟩
      · rw [readModuleName] at hread
        split at hread
        · simp at hread
        · rename_i given hgiven
          split at hread
          · rename_i checked hchecked
            obtain rfl := Except.ok.inj hread
            exact ⟨entries, value, given, rfl, hvalue, hgiven,
              Naming.strip_of_checkModuleName hchecked⟩
          · simp [refuse] at hread
      · simp at hdefault
    · simp at h
  | _ => simp [ModuleEntry.read, refuse] at h

theorem readModules_readFrom (h : readModules d = .ok modules) :
    ∃ items, itemsOf? d = some items ∧ List.Forall₂ ModuleEntry.ReadFrom items modules ∧
      (modules.map (·.name)).Nodup := by
  rw [readModules] at h
  split at h
  · simp at h
  · rename_i found hfound
    split at h
    · rename_i hrepeated
      obtain rfl := Except.ok.inj h
      rw [readItems] at hfound
      split at hfound
      · rename_i items hitems
        refine ⟨items, hitems, ?_, nodup_of_repeated hrepeated⟩
        exact (forall₂_of_itemsFrom hfound).imp fun _ _ => ModuleEntry.readFrom_of_read
      · simp [refuse] at hfound
    · simp [refuse] at h

/-- **The modules of accepted data** are read from the items of its list, one from each,
and no two have one name. -/
theorem Settings.ofData_readFrom (h : Settings.ofData d = .ok s) :
    List.Forall₂ ModuleEntry.ReadFrom d.moduleItems s.modules ∧
      (s.modules.map (·.name)).Nodup := by
  cases d with
  | record entries =>
    have hchecked : Settings.ofEntries entries = .ok s := by
      cases hentries : Settings.ofEntries entries with
      | ok settings => simpa [Settings.ofData, hentries] using h
      | error faults => simp [Settings.ofData, hentries] at h
    rw [Settings.ofEntries] at hchecked
    split at hchecked
    · rename_i hboth
      obtain rfl := Except.ok.inj hchecked
      obtain ⟨-, hboth⟩ := both_eq_ok hboth
      obtain ⟨-, hboth⟩ := both_eq_ok hboth
      obtain ⟨-, hboth⟩ := both_eq_ok hboth
      obtain ⟨-, hmodules⟩ := both_eq_ok hboth
      rcases field_cases hmodules with ⟨value, hvalue, hread⟩ | ⟨hnone, hdefault⟩
      · obtain ⟨items, hitems, hforall, hnodup⟩ := readModules_readFrom hread
        simpa [Data.moduleItems, hvalue, hitems] using ⟨hforall, hnodup⟩
      · obtain rfl := Option.some.inj hdefault
        simp [Data.moduleItems, hnone]
    · simp at hchecked
  | _ => simp [Settings.ofData, refuse] at h

/-- An entry is found under its name if no other has it. -/
theorem Settings.find?_name (hnodup : (s.modules.map (·.name)).Nodup) (he : e ∈ s.modules) :
    s.find? e.name = some e := by
  rw [Settings.find?]
  cases hfound : s.modules.find? (·.name == e.name) with
  | none =>
    have hother := List.find?_eq_none.mp hfound e he
    simp at hother
  | some found =>
    have hsame : found.name = e.name := by simpa using List.find?_some hfound
    rw [List.inj_on_of_nodup_map hnodup (List.mem_of_find?_eq_some hfound) he hsame]

end Accepted

/-! ## Requests for accepted modules -/

namespace Disk.Path

variable {base p : Path}

theorem hasNul_ofText {text : String} (h : '\x00' ∉ text.toList) :
    (ofText text).hasNul = false := by
  rw [hasNul_eq_false_iff]
  intro x hx
  obtain ⟨cs, hcs, rfl⟩ := List.mem_map.mp (List.mem_of_mem_filter hx)
  rw [String.toList_ofList]
  exact fun hnul => h (Text.mem_of_mem_pieces hcs _ hnul).1

theorem hasNul_join (hbase : base.hasNul = false) (hp : p.hasNul = false) :
    (base.join p).hasNul = false := by
  rw [join]
  split
  · rw [hasNul_eq_false_iff] at hbase hp ⊢
    exact fun x hx => (List.mem_append.mp hx).elim (hbase x) (hp x)
  · exact hp

end Disk.Path

section Requests

variable {d : Data} {s : Settings} {root : Path} {e : ModuleEntry} {o : Request.Overrides}
  {overrides : List (Data × Data)} {w : World}

/-- The texts for the directory of a module are written without the null character. -/
def Settings.IsNulFree (s : Settings) (root : Path) (e : ModuleEntry) : Prop :=
  root.hasNul = false ∧ '\x00' ∉ s.apisDirectory.toList ∧
    ∀ text ∈ e.path?, '\x00' ∉ text.toList

theorem Settings.IsNulFree.directory (h : s.IsNulFree root e) (he : e.Valid) :
    (s.directory root e).hasNul = false := by
  obtain ⟨hroot, hapis, hpath⟩ := h
  have hname := (Naming.checkModuleName_eq_ok he.name).2
  rw [Settings.directory]
  split
  · rename_i text htext
    have hgiven : e.path? = some text := (Option.filter_eq_some_iff.mp htext).1
    exact Path.hasNul_join hroot (Path.hasNul_ofText (hpath text hgiven))
  · exact Path.hasNul_join (Path.hasNul_join hroot (Path.hasNul_ofText hapis))
      (Path.hasNul_ofText (notMem_kebabCase hname (by decide) (by decide)))

/-- What a request for a module holds: what the overrides say, and else what the entry and
the settings do. -/
structure IsRequestFor (s : Settings) (e : ModuleEntry) (o : Request.Overrides) (r : Request) :
    Prop where
  moduleName : r.moduleName = e.name
  operations : r.operations = e.apiType.operations
  framework : r.framework = o.framework?.getD s.framework
  isAppend : r.isAppend = o.isAppend?.getD s.isAppend
  isDryRun : r.isDryRun = o.isDryRun?.getD false

/-- **What accepted settings give.** There is one module for each item, none has the name of
another, and each is found under its name. For every module and all overrides of its
framework, of its mode and of the dry run there is a request that holds what it should,
unless the directory of the module leads into a loop of links; then the request fails by
that alone. -/
theorem accepted_requests (h : Settings.ofData d = .ok s) :
    List.Forall₂ ModuleEntry.ReadFrom d.moduleItems s.modules ∧
      (s.modules.map (·.name)).Nodup ∧
      ∀ e ∈ s.modules, s.find? e.name = some e ∧
        ∀ root o overrides w, s.IsNulFree root e → o.SaidBy overrides → o.apiType? = none →
          (¬ LeadsIntoLoop w.disk (s.directory root e) →
            ∃ r, (s.request root overrides e).runIn w = (.ok r, w) ∧ IsRequestFor s e o r ∧
              w.disk.resolve (s.directory root e) = .ok r.modulePath) ∧
          (LeadsIntoLoop w.disk (s.directory root e) →
            ∃ text, (s.request root overrides e).runIn w = (.error (.disk (.loop text)), w)) := by
  obtain ⟨hread, hnodup⟩ := Settings.ofData_readFrom h
  refine ⟨hread, hnodup, fun e he => ⟨Settings.find?_name hnodup he, ?_⟩⟩
  intro root o overrides w hfree hsaid hnone
  have hvalid : e.Valid := Settings.ofData_valid h e he
  have hnul : (s.directory root e).hasNul = false := hfree.directory hvalid
  rw [Settings.request_of_saidBy hvalid.name (by simp [hnone]) hsaid, Work.runIn_bind,
    Work.runIn_resolve]
  constructor
  · intro hescapes
    obtain ⟨directory, hdirectory⟩ := resolve_of_escapes hnul hescapes
    rw [hdirectory]
    have hoperations : (e.request s o directory).operations = e.apiType.operations := by
      rw [ModuleEntry.request, hnone]
      rfl
    exact ⟨e.request s o directory, rfl, ⟨rfl, hoperations, rfl, rfl, rfl⟩, rfl⟩
  · intro hloop
    obtain ⟨text, hfault⟩ := resolve_of_loop hnul hloop
    rw [hfault]
    exact ⟨text, rfl⟩

end Requests

/-- A module whose name is written with blanks around it. -/
private def paddedData : Data :=
  .record [(.text "append_mode", .text "on"),
    (.text "modules", .list [.record [(.text "name", .text " todo ")]])]

private def paddedSettings : Settings :=
  ⟨1, .express, Settings.usualApisDirectory, true, [.plain "todo"]⟩

/-- The request for it is for another framework, and for everything else as its settings
say. -/
theorem accepted_requests_padded :
    ∃ r, (paddedSettings.request ⟨.root, ["w"]⟩ [(.text "framework", .text "hono")]
        (.plain "todo")).runIn (World.ofDisk (.empty ["w"])) =
          (.ok r, World.ofDisk (.empty ["w"])) ∧
      r.moduleName = "todo" ∧ r.framework = .hono ∧ r.isAppend = true ∧ r.isDryRun = false := by
  have haccepted : Settings.ofData paddedData = .ok paddedSettings := by
    decide +kernel
  obtain ⟨-, -, hrequests⟩ := accepted_requests haccepted
  obtain ⟨-, hrequest⟩ := hrequests (.plain "todo") List.mem_cons_self
  have hlinks : NoLinksBelow (World.ofDisk (.empty ["w"])).disk [] :=
    noLinksBelow_of_entries (by decide)
  obtain ⟨hmade, -⟩ := hrequest ⟨.root, ["w"]⟩ ⟨none, none, some .hono, none⟩
    [(.text "framework", .text "hono")] (World.ofDisk (.empty ["w"]))
    ⟨by decide, by decide, by simp [ModuleEntry.plain]⟩ ⟨rfl, rfl, rfl, rfl, rfl, rfl⟩ rfl
  obtain ⟨r, hrun, hr, -⟩ := hmade (not_leadsIntoLoop hlinks)
  exact ⟨r, hrun, hr.moduleName, hr.framework, hr.isAppend, hr.isDryRun⟩

/-- A module in a directory that is a link to itself. -/
private def loopData : Data :=
  .record [(.text "modules",
    .list [.record [(.text "name", .text "todo"), (.text "path", .text "loop")]])]

private def loopSettings : Settings :=
  ⟨1, .express, Settings.usualApisDirectory, false, [⟨"todo", some "loop", .crud⟩]⟩

private def loopWorld : World :=
  World.ofDisk <| Disk.empty ["w"] |>.put ["loop", "w"] (.link "loop")

/-- These data are accepted, and there is no request for their module. -/
theorem accepted_without_request :
    Settings.ofData loopData = .ok loopSettings ∧
      ∀ e ∈ loopSettings.modules, loopSettings.IsNulFree ⟨.root, ["w"]⟩ e ∧
        ∀ r, ((loopSettings.request ⟨.root, ["w"]⟩ [] e).runIn loopWorld).1 ≠ .ok r := by
  have hfails : ((loopSettings.request ⟨.root, ["w"]⟩ [] ⟨"todo", some "loop", .crud⟩).runIn
      loopWorld).1 = .error (.disk (.loop "/w/loop")) := by
    decide +kernel
  refine ⟨by decide +kernel, fun e he => ?_⟩
  obtain rfl := List.mem_singleton.mp he
  refine ⟨⟨by decide, by decide, by simp⟩, fun r => ?_⟩
  rw [hfails]
  simp

end Stencil
