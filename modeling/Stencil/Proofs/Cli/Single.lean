import Stencil.Cli.Commands
import Stencil.Proofs.Config.Requests

/-!
# Stencil — the request for a single module

There are two ways to the request for a module. One starts at an entry of the
settings, the other at a name on the command line. The second one looks the name up
as it was typed, while every entry and every request has it without the blanks around
it; a name with blanks around it is not found, and the module is taken for one that is
not configured.

Main results:

* `singleRequest_eq` — the request for a name, as the request for an entry;
* `singleRequest_agrees` — when that entry is the one of the module.
-/

namespace Stencil

open Stencil.Check Stencil.Disk

/-! ## Names as they were typed -/

/-- Blanks around a name do not show in its directory. -/
theorem Naming.kebabCase_checked {given name : String} (h : checkModuleName given = .ok name) :
    kebabCase name = kebabCase given := by
  have htrim : Text.trim name.toList = Text.trim given.toList := by
    rw [checkModuleName] at h
    split at h
    · simp at h
    · rename_i c rest hgiven
      split at h
      · simp at h
      · split at h
        · simp at h
        · obtain rfl := Except.ok.inj h
          rw [String.toList_ofList, ← hgiven]
          exact Text.trimWhere_trimWhere Text.isBlank given.toList
  rw [kebabCase, kebabCase, kebab, kebab, words, words, htrim]

namespace Settings

variable {s : Settings} {given name : String}

/-- The entry of the module of that name. A module that is not configured has one that
says nothing but its name. -/
def entryOf (s : Settings) (name : String) : ModuleEntry :=
  (s.find? name).getD (.plain name)

theorem entryOf_of_find? {e : ModuleEntry} (h : s.find? name = some e) : s.entryOf name = e := by
  rw [entryOf, h]
  rfl

theorem name_of_find? {e : ModuleEntry} (h : s.find? name = some e) :
    e ∈ s.modules ∧ e.name = name := by
  rw [find?] at h
  have hsame := List.find?_some h
  exact ⟨List.mem_of_find?_eq_some h, beq_iff_eq.mp hsame⟩

theorem entryOf_name (s : Settings) (name : String) : (s.entryOf name).name = name := by
  cases hfind : s.find? name with
  | none => rw [entryOf, hfind]; rfl
  | some e => rw [entryOf_of_find? hfind, (name_of_find? hfind).2]

end Settings

namespace Cli

section Requests

variable {s : Settings} {root p q : Path} {given name : String} {choices : Choices}
  {apiType? : Option ApiType}

/-- The operations that an option names make a valid api type. -/
theorem customApiType_valid {custom? : Option String}
    (h : customApiType custom? = .ok apiType?) : ∀ t ∈ apiType?, t.Valid := by
  rw [customApiType] at h
  split at h
  · obtain rfl := Except.ok.inj h
    simp
  · dsimp only at h
    split at h
    · rename_i t hread
      obtain rfl := Except.ok.inj h
      intro t' ht'
      obtain rfl := Option.some.inj ht'
      rw [ApiType.ofData] at hread
      split at hread
      · rename_i hentries
        obtain rfl := Except.ok.inj hread
        exact ApiType.read_valid (d := .record _) hentries
      · simp at hread
    · simp at h

/-- What the options of a command say about a request, the operations that they name
among it. -/
def Choices.overrides (choices : Choices) (apiType? : Option ApiType) : Request.Overrides :=
  ⟨apiType?, choices.append?, choices.framework?, some choices.isDryRun⟩

/-- A name that is found gives the request for its entry. -/
theorem singleRequest_of_some {e : ModuleEntry} (hpath : choices.path? = none)
    (hcustom : customApiType choices.custom? = .ok apiType?) (hfind : s.find? given = some e)
    (hname : Naming.checkModuleName e.name = .ok e.name) :
    singleRequest ⟨some s, root⟩ given choices =
      (Work.resolve (s.directory root e) >>= fun p =>
        pure (e.request s (choices.overrides apiType?) p)) := by
  have hconfigured : configured? ⟨some s, root⟩ given choices.path? = some (s, e) := by
    simp only [configured?, hpath, hfind, Option.map_some]
  unfold singleRequest
  rw [hcustom]
  simp only [Work.ofExcept, pure_bind, hconfigured, Settings.resolvedDirectory]
  congr 1
  funext p
  rw [Request.ofName_nil_eq_ok hname rfl]
  rfl

/-- A name that is not found gives the request for an entry that says nothing but the
name, without the blanks around it. -/
theorem singleRequest_of_none (hpath : choices.path? = none)
    (hcustom : customApiType choices.custom? = .ok apiType?) (hfind : s.find? given = none)
    (hname : Naming.checkModuleName given = .ok name) :
    singleRequest ⟨some s, root⟩ given choices =
      (Work.resolve (s.directory root (.plain name)) >>= fun p =>
        pure ((ModuleEntry.plain name).request s (choices.overrides apiType?) p)) := by
  have hconfigured : configured? ⟨some s, root⟩ given choices.path? = none := by
    simp only [configured?, hpath, hfind, Option.map_none]
  have hdirectory : givenDirectory ⟨some s, root⟩ given choices.path? =
      s.directory root (.plain name) := by
    rw [hpath, givenDirectory, Settings.directory]
    simp only [Option.filter_none, ModuleEntry.plain, Naming.kebabCase_checked hname]
    rfl
  unfold singleRequest
  rw [hcustom]
  simp only [Work.ofExcept, pure_bind, hconfigured, hdirectory]
  congr 1
  funext p
  rw [Request.ofName_nil_eq_ok hname rfl]
  rfl

/-- **The request for a name** is the request for an entry: for the one of the module if
the name is typed as it is checked, and for one that says nothing but the name if not. -/
theorem singleRequest_eq (root : Path) (hvalid : ∀ e ∈ s.modules, e.Valid)
    (hname : Naming.checkModuleName given = .ok name) (hpath : choices.path? = none)
    (hcustom : customApiType choices.custom? = .ok apiType?) :
    singleRequest ⟨some s, root⟩ given choices =
      s.request root (choices.overrides apiType?).entries
        (if given = name then s.entryOf name else .plain name) := by
  have hapiType := customApiType_valid hcustom
  have hchecked := (Naming.checkModuleName_eq_ok hname).1
  cases hfind : s.find? given with
  | some e =>
    -- a name that is found is the name of an entry
    obtain ⟨hmem, rfl⟩ := Settings.name_of_find? hfind
    obtain rfl := Except.ok.inj ((hvalid e hmem).name.symm.trans hname)
    rw [if_pos rfl, Settings.entryOf_of_find? hfind, Settings.request_eq hname hapiType]
    exact singleRequest_of_some hpath hcustom hfind hname
  | none =>
    have hentry : (if given = name then s.entryOf name else .plain name) = .plain name := by
      split
      · rename_i hsame
        rw [Settings.entryOf, ← hsame, hfind]
        rfl
      · rfl
    rw [hentry, Settings.request_eq (e := .plain name) hchecked hapiType]
    exact singleRequest_of_none hpath hcustom hfind hname

/-- **When the two ways agree.** The request for a name that is typed as it is checked is
the one for the entry of the module. With blanks around it the name is taken for one
that is not configured, and the requests are the same only if the entry says nothing of
its own: neither another directory nor operations that count. -/
theorem singleRequest_agrees (root : Path) {file : Path} {w₀ w₁ : World}
    (hloaded : (Config.loadFrom file).runIn w₀ = (.ok s, w₁))
    (hname : Naming.checkModuleName given = .ok name) (hpath : choices.path? = none)
    (hcustom : customApiType choices.custom? = .ok apiType?) :
    singleRequest ⟨some s, root⟩ given choices =
        s.request root (choices.overrides apiType?).entries
          (if given = name then s.entryOf name else .plain name) ∧
      ∀ w p q, w.disk.resolve (s.directory root (s.entryOf name)) = .ok p →
        w.disk.resolve (s.directory root (.plain name)) = .ok q →
        (s.request root (choices.overrides apiType?).entries (s.entryOf name)).runIn w =
            (.ok ((s.entryOf name).request s (choices.overrides apiType?) p), w) ∧
          ((singleRequest ⟨some s, root⟩ given choices).runIn w =
              (s.request root (choices.overrides apiType?).entries (s.entryOf name)).runIn w ↔
            given = name ∨
              p = q ∧ apiType?.getD (s.entryOf name).apiType = apiType?.getD .crud) := by
  have hvalid := Config.loadFrom_valid hloaded
  have hapiType := customApiType_valid hcustom
  have hchecked := (Naming.checkModuleName_eq_ok hname).1
  have hsingle := singleRequest_eq root hvalid hname hpath hcustom
  refine ⟨hsingle, fun w p q hp hq => ?_⟩
  have hentry := s.entryOf_name name
  have hrun := Settings.request_runIn (o := choices.overrides apiType?)
    (hentry.symm ▸ hchecked) hapiType hp
  have hplain := Settings.request_runIn (o := choices.overrides apiType?) (e := .plain name)
    hchecked hapiType hq
  refine ⟨hrun, ?_⟩
  rw [hrun, hsingle]
  by_cases hsame : given = name
  · rw [if_pos hsame, hrun]
    simp [hsame]
  · rw [if_neg hsame, hplain]
    simp [hsame, ModuleEntry.request, hentry, ModuleEntry.plain, eq_comm, Choices.overrides]

end Requests

/-! ## A configured module under a name with blanks -/

private def placedSource : String :=
  "modules:\n- \x7bname: todo, path: x\x7d\n"

private def placedSettings : Settings :=
  ⟨1, .express, Settings.usualApisDirectory, false, [⟨"todo", some "x", .crud⟩]⟩

private def placedPath : Path :=
  ⟨.here, ["crudgen.yml"]⟩

private def placedWorld : World :=
  World.ofDisk <| Disk.empty ["w"]
    |>.put ["crudgen.yml", "w"] (.file (Module.bytesOf placedSource) newFileMode)

private def plainChoices : Choices :=
  ⟨none, some "get, list", none, none, false⟩

/-- A configured module is looked for where it is not, if its name is typed with blanks
around it. -/
theorem singleRequest_blanks :
    (singleRequest ⟨some placedSettings, ⟨.root, ["w"]⟩⟩ "todo" plainChoices).runIn placedWorld ≠
      (singleRequest ⟨some placedSettings, ⟨.root, ["w"]⟩⟩ " todo " plainChoices).runIn
        placedWorld := by
  have hloaded : (Config.loadFrom placedPath).runIn placedWorld =
      (.ok placedSettings, placedWorld) := by
    decide +kernel
  have hcustom : customApiType plainChoices.custom? = .ok (some ⟨.custom, ["get", "list"]⟩) := by
    decide +kernel
  obtain ⟨htyped, -⟩ := singleRequest_agrees ⟨.root, ["w"]⟩ hloaded
    (show Naming.checkModuleName "todo" = .ok "todo" by decide +kernel) rfl hcustom
  obtain ⟨-, hblank⟩ := singleRequest_agrees ⟨.root, ["w"]⟩ hloaded
    (show Naming.checkModuleName " todo " = .ok "todo" by decide +kernel) rfl hcustom
  rw [htyped]
  intro hsame
  have hplaces := (hblank placedWorld ⟨.root, ["w", "x"]⟩ ⟨.root, ["w", "src", "apis", "todo"]⟩
    (by decide +kernel) (by decide +kernel)).2.mp hsame.symm
  revert hplaces
  decide

end Cli

end Stencil
