import Stencil.Disk.Resolve
import Stencil.Proofs.Disk.Below

/-!
# Stencil — resolved paths

To resolve a path is to walk its names and those of the links on the way, whether or not
anything lies there. Nothing but a link that leads back to itself stops that, and not
even such a link if the names behind it lead out of the loop again.

Main results:

* `resolve_child` — where one more name leads;
* `resolve_of_escapes`, `resolve_of_loop` — when a path can be resolved;
* `not_leadsIntoLoop` — without links it always can.
-/

namespace Stencil.Disk

/-! ## One more name -/

section Names

variable {d : Disk} {follow : Place → String → Resolution} {place place' : Place}

theorem resolveSteps_append {names : List String}
    (h : resolveSteps d follow place names = .done place') (rest : List String) :
    resolveSteps d follow place (names ++ rest) = resolveSteps d follow place' rest := by
  -- whatever the names passed, the rest goes on where they have led
  fun_induction resolveSteps d follow place names with
  | case1 place =>
    obtain rfl := Resolution.done.inj h
    rfl
  | case2 place name names hskip ih =>
    rw [List.cons_append, resolveSteps, if_pos hskip]
    exact ih h
  | case3 place names hskip ih =>
    rw [List.cons_append, resolveSteps, if_neg hskip, if_pos rfl]
    exact ih h
  | case4 place name names hskip hup target hlook next hfollow ih =>
    rw [List.cons_append, resolveSteps, if_neg hskip, if_neg hup, hlook]
    simp only [hfollow]
    exact ih h
  | case5 place name names hskip hup target hlook path hfollow => simp at h
  | case6 place name names hskip hup hlook ih =>
    rw [List.cons_append, resolveSteps, if_neg hskip, if_neg hup]
    split
    · rename_i target htarget
      exact absurd htarget (hlook target)
    · exact ih h

/-- **One more name leads one deeper**, unless a link lies there. -/
theorem resolve_child {base : Path} {name : String} (hbase : d.resolution base = .done place)
    (hnul : (base.child name).hasNul = false) (hempty : name ≠ "") (hdot : name ≠ ".")
    (hup : name ≠ "..") (hlink : ∀ target, d.look (name :: place) ≠ some (.link target)) :
    d.resolve (base.child name) = .ok (pathOf (name :: place)) := by
  have hstep : ∀ follow, resolveSteps d follow place [name] = .done (name :: place) := by
    intro follow
    rw [resolveSteps, if_neg (by simp [hempty, hdot]), if_neg hup]
    split
    · rename_i target htarget
      exact absurd htarget (hlink target)
    · rw [resolveSteps]
  have hresolution : d.resolution (base.child name) = .done (name :: place) := by
    show resolveSteps d _ (d.start base) (base.parts ++ [name]) = _
    rw [resolveSteps_append hbase, hstep]
  rw [resolve, hnul, hresolution]
  rfl

end Names

/-! ## Loops -/

variable {d : Disk} {p : Path}

/-- A path that leads into a loop of links and not out of it again. -/
def LeadsIntoLoop (d : Disk) (p : Path) : Prop :=
  ∃ path, d.resolution p = .stuck path ∧ d.entryAt (d.absolute path) = .error .linkLoop

theorem resolve_of_loop (hnul : p.hasNul = false) (h : LeadsIntoLoop d p) :
    ∃ text, d.resolve p = .error (.loop text) := by
  obtain ⟨path, hstuck, hloop⟩ := h
  refine ⟨(d.absolute path).text, ?_⟩
  rw [resolve, hnul, hstuck]
  simp [hloop]

theorem resolve_of_escapes (hnul : p.hasNul = false) (h : ¬ LeadsIntoLoop d p) :
    ∃ directory, d.resolve p = .ok directory := by
  rw [resolve, hnul]
  simp only [Bool.false_eq_true, if_false]
  cases hresolution : d.resolution p with
  | done place => exact ⟨_, rfl⟩
  | stuck path =>
    refine ⟨d.absolute path, ?_⟩
    dsimp only
    split
    · rename_i hloop
      exact absurd ⟨path, hresolution, hloop⟩ h
    · rfl

/-- Without links, every step leads on. -/
private theorem resolveSteps_of_noLinks (hlinks : NoLinksBelow d [])
    (follow : Place → String → Resolution) (place : Place) (names : List String) :
    ∃ place', resolveSteps d follow place names = .done place' := by
  fun_induction resolveSteps d follow place names with
  | case1 place => exact ⟨place, rfl⟩
  | case2 place name names hskip ih => exact ih
  | case3 place names hskip ih => exact ih
  | case4 place name names hskip hup target hlook next hfollow ih => exact ih
  | case5 place name names hskip hup target hlook path hfollow =>
    exact absurd hlook (hlinks _ _ List.nil_suffix)
  | case6 place name names hskip hup hlook ih => exact ih

theorem not_leadsIntoLoop (hlinks : NoLinksBelow d []) : ¬ LeadsIntoLoop d p := by
  rintro ⟨path, hstuck, -⟩
  obtain ⟨place, hdone⟩ := resolveSteps_of_noLinks hlinks
    (resolveLink d (d.entries.length + 1) []) (d.start p) p.parts
  rw [resolution, hdone] at hstuck
  simp at hstuck

end Stencil.Disk
