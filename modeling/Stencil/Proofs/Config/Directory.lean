import Stencil.Config.Settings
import Stencil.Proofs.Disk.Path
import Stencil.Proofs.Disk.Resolve
import Stencil.Proofs.Naming.Shapes
import Stencil.Proofs.Request.Valid

/-!
# Stencil — where modules lie that say nothing about it

A module without a path of its own lies in the directory for modules, under a
name derived from its own. A name of hyphens and underscores alone is a valid
name for a module, and nothing is derived from it; such a module lies in the
directory for modules itself.

Main results:

* `Settings.directory_eq` — the directory of a module;
* `derived_names` — when a name is good for all that is derived from it.
-/

namespace Stencil

open Stencil.Disk Stencil.Naming

/-! ## The directory of a module -/

section Directory

variable {name : String} (hname : ∀ c ∈ name.toList, isNameChar c = true)

include hname

theorem notMem_kebabCase {c : Char} (hc : c.isAlphanum = false) (hhyphen : c ≠ '-') :
    c ∉ (kebabCase name).toList := by
  intro hmem
  rcases kebabCase_chars hname c hmem with halphanum | rfl
  · rw [hc] at halphanum
    exact absurd halphanum (by decide)
  · exact hhyphen rfl

/-- A derived name is none of the names with a meaning of their own. -/
theorem kebabCase_ne {text : String} (hdot : '.' ∈ text.toList) : kebabCase name ≠ text := by
  rintro rfl
  exact notMem_kebabCase hname (by decide) (by decide) hdot

theorem kebabCase_eq_empty_iff :
    kebabCase name = "" ↔ ¬ ∃ c ∈ name.toList, c.isAlphanum = true :=
  eq_empty_iff (head?_kebabCase hname)

/-- **The directory of a module without a path of its own** has a name of its own, or is
the directory for modules. -/
theorem Settings.directory_eq {s : Settings} {e : ModuleEntry} (he : e.name = name)
    (hpath : e.path?.filter (· ≠ "") = none) (root : Path) :
    ((∃ c ∈ name.toList, c.isAlphanum = true) →
      s.directory root e = (root.join (.ofText s.apisDirectory)).child (kebabCase name)) ∧
    ((¬ ∃ c ∈ name.toList, c.isAlphanum = true) →
      s.directory root e = root.join (.ofText s.apisDirectory)) := by
  have hempty := kebabCase_eq_empty_iff hname
  rw [Settings.directory, hpath, he]
  dsimp only
  constructor
  · intro hsome
    rw [Path.ofText_name (notMem_kebabCase hname (by decide) (by decide))
      (fun h => hempty.mp h hsome) (kebabCase_ne hname (by simp))]
    rfl
  · intro hnone
    rw [hempty.mpr hnone]
    show Disk.Path.mk _ (_ ++ []) = _
    rw [List.append_nil]

/-- It lies right below the directory for modules, also once links are followed,
unless it is a link itself. -/
theorem Settings.resolve_directory {s : Settings} {e : ModuleEntry} (he : e.name = name)
    (hpath : e.path?.filter (· ≠ "") = none) {root : Path}
    (hsome : ∃ c ∈ name.toList, c.isAlphanum = true) {d : Disk} {place : Place}
    (hnul : (root.join (.ofText s.apisDirectory)).hasNul = false)
    (hbase : d.resolution (root.join (.ofText s.apisDirectory)) = .done place)
    (hlink : ∀ target, d.look (kebabCase name :: place) ≠ some (.link target)) :
    d.resolve (s.directory root e) = .ok (pathOf (kebabCase name :: place)) := by
  have hempty : kebabCase name ≠ "" := fun h => (kebabCase_eq_empty_iff hname).mp h hsome
  rw [(Settings.directory_eq hname he hpath root).1 hsome]
  refine resolve_child hbase ?_ hempty (kebabCase_ne hname (by simp))
    (kebabCase_ne hname (by simp)) hlink
  rw [Path.hasNul_eq_false_iff] at hnul ⊢
  intro x hx
  rcases List.mem_append.mp hx with hx | hx
  · exact hnul x hx
  · obtain rfl := List.mem_singleton.mp hx
    exact notMem_kebabCase hname (by decide) (by decide)

end Directory

/-! ## Good names -/

variable {given name : String}

/-- **Which valid names are good for all that is derived from them.** The names for
code need a letter before all digits, and the others a letter or a digit. A
module whose name has neither lies in the directory for modules itself. -/
theorem derived_names (h : checkModuleName given = .ok name) :
    (IsJoined '-' isSmall (moduleNames given).directory ↔
      ∃ c ∈ name.toList, c.isAlphanum = true) ∧
    (IsHeaded Char.isLower (moduleNames given).file ↔ BeginsWithLetter name) ∧
    (IsHeaded Char.isUpper (moduleNames given).className ↔ BeginsWithLetter name) ∧
    (StartsWith Char.isUpper (moduleNames given).constant ∧
      IsJoined '_' isCapital (moduleNames given).constant ↔ BeginsWithLetter name) ∧
    (moduleNames given).variableName = (moduleNames given).file ∧
    (moduleNames given).url = (moduleNames given).directory ∧
    (∀ text ∈ [(moduleNames given).directory, (moduleNames given).file,
        (moduleNames given).className, (moduleNames given).constant],
      (text = "" ↔ ¬ ∃ c ∈ name.toList, c.isAlphanum = true)) ∧
    ∀ (s : Settings) (root : Path) (e : ModuleEntry), e.name = name →
      e.path?.filter (· ≠ "") = none →
        ((∃ c ∈ name.toList, c.isAlphanum = true) → s.directory root e =
          (root.join (.ofText s.apisDirectory)).child (moduleNames given).directory) ∧
        ((¬ ∃ c ∈ name.toList, c.isAlphanum = true) →
          s.directory root e = root.join (.ofText s.apisDirectory)) ∧
        ((∃ c ∈ name.toList, c.isAlphanum = true) → ∀ (d : Disk) (place : Place),
          (root.join (.ofText s.apisDirectory)).hasNul = false →
          d.resolution (root.join (.ofText s.apisDirectory)) = .done place →
          (∀ target, d.look ((moduleNames given).directory :: place) ≠ some (.link target)) →
            d.resolve (s.directory root e) =
              .ok (pathOf ((moduleNames given).directory :: place))) := by
  have hname := (checkModuleName_eq_ok h).2
  obtain ⟨hdirectory, hfile, hclass, hconstant, hvariable, hurl⟩ := moduleNames_shapes hname
  rw [moduleNames_of_checkModuleName h]
  refine ⟨hdirectory, hfile, hclass, hconstant, hvariable, hurl, moduleNames_eq_empty_iff hname,
    fun s root e he hpath => ?_⟩
  rw [moduleNames_eq hname]
  obtain ⟨hown, hshared⟩ := Settings.directory_eq hname he hpath root
  exact ⟨hown, hshared, fun hsome d place hnul hbase hlink =>
    Settings.resolve_directory hname he hpath hsome hnul hbase hlink⟩

/-- A module called `_` lies in the directory for modules, and the file of one called
`_1a` begins with a digit. -/
theorem derived_names_underscore :
    (⟨1, .express, "src/apis", false, []⟩ : Settings).directory (.ofText "/proj") (.plain "_") =
      .ofText "/proj/src/apis" ∧
    ¬ IsHeaded Char.isLower (moduleNames "_1a").file := by
  have hvalid : checkModuleName "_" = .ok "_" := rfl
  have hdigit : checkModuleName "_1a" = .ok "_1a" := rfl
  constructor
  · obtain ⟨-, -, -, -, -, -, -, hdirectory⟩ := derived_names hvalid
    rw [(hdirectory _ _ (.plain "_") rfl rfl).2.1 (by simp)]
    rfl
  · obtain ⟨-, hfile, -⟩ := derived_names hdigit
    rw [hfile]
    rintro ⟨c, hc, halpha⟩
    obtain rfl : '1' = c := Option.some.inj hc
    exact absurd halpha (by decide)

end Stencil
