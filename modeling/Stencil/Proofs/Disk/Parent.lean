import Stencil.Proofs.Disk.Path
import Stencil.Proofs.Disk.Temporary

/-!
# Stencil — the directory of a file

A path that leads to a file ends with the name of that file, and the path
without it leads to the directory that the file lies in.

Main results:

* `EndsInName.of_file` — the last name of a path to a file;
* `EndsInName.locate_parent` — where the path without it leads.
-/

namespace Stencil.Disk

/-- The last name of a path is one that a file can have. -/
structure EndsInName (path : Path) : Prop where
  name : IsName path.name
  parts : path.parts = path.parts.dropLast ++ [path.name]

theorem parent_child (base : Path) (name : String) : (base.child name).parent = base := by
  simp [Path.parent, Path.child]

theorem endsInName_child {base : Path} {name : String} (hname : IsName name) :
    EndsInName (base.child name) := by
  have hlast : (base.child name).name = name := by simp [Path.name, Path.child]
  refine ⟨by rwa [hlast], ?_⟩
  rw [hlast]
  simp [Path.child]

/-- A path without its last name is not too long if the path is not. -/
private theorem size_parent {path : Path} {names : List String} {x : String}
    (hparts : path.parts = names ++ [x]) (hsize : path.text.utf8ByteSize < pathLimit) :
    path.parent.text.utf8ByteSize < pathLimit := by
  obtain ⟨anchor, parts⟩ := path
  subst hparts
  have hparent : Path.parent ⟨anchor, names ++ [x]⟩ = ⟨anchor, names⟩ := by
    simp [Path.parent]
  rw [hparent]
  -- without names only the anchor is left
  by_cases hnil : names = []
  · subst hnil
    cases anchor <;> decide
  · -- otherwise a slash and the last name are gone
    rw [Path.text_eq anchor (by simp), String.intercalate_append_of_ne_nil hnil (by simp)] at hsize
    rw [Path.text_eq anchor hnil]
    simp only [String.utf8ByteSize_append] at hsize ⊢
    omega

namespace EndsInName

variable {d : Disk} {path : Path}

/-- The place of a path lies in the place of its directory. -/
theorem locate_parent (h : EndsInName path) {p : Place} (hp : d.locate .atLink path = .ok p) :
    ∃ r m, p = path.name :: r ∧ d.locate .beyond path.parent = .ok r ∧
      d.look r = some (.directory m) := by
  obtain ⟨hsize, hwalk⟩ := locate_eq_ok_iff.mp hp
  rw [h.parts] at hwalk
  obtain ⟨r, m, hplace, hr, hlook, -⟩ := hwalk.concat h.name
  exact ⟨r, m, hplace, locate_eq_ok_iff.mpr ⟨size_parent h.parts hsize, hr⟩, hlook⟩

theorem place_ne_nil (h : EndsInName path) {p : Place} (hp : d.locate .atLink path = .ok p) :
    p ≠ [] := by
  obtain ⟨r, m, rfl, -⟩ := h.locate_parent hp
  simp

/-- The directory is there. -/
theorem entryAt_parent (h : EndsInName path) {p : Place} (hp : d.locate .atLink path = .ok p) :
    ∃ m, d.entryAt path.parent = .ok (.directory m) := by
  obtain ⟨r, m, -, hr, hlook⟩ := h.locate_parent hp
  exact ⟨m, entryAt_eq_ok_iff.mpr ⟨r, hr, hlook⟩⟩

/-- A temporary file does not lie where the path itself leads. -/
theorem temporary_ne (h : EndsInName path) {d' : Disk} {t p : Place}
    (ht : d.locate .atLink (d.temporaryPath path) = .ok t) (hp : d'.locate .atLink path = .ok p) :
    t ≠ p := by
  obtain ⟨n, r, rfl⟩ := locate_temporaryPath ht
  obtain ⟨r', m, rfl, -⟩ := h.locate_parent hp
  -- both places end with a name, and these differ
  intro heq
  exact temporaryName_ne path.name n (List.cons.inj heq).1

/-- A path has a last name if it ends with one. -/
theorem parts_eq (hends : path.endsInName = true) :
    path.name ≠ ".." ∧ path.parts = path.parts.dropLast ++ [path.name] := by
  simp only [Path.endsInName, decide_eq_true_eq] at hends
  obtain ⟨hempty, hup⟩ := hends
  refine ⟨hup, ?_⟩
  rw [Path.name] at hempty ⊢
  cases hlast : path.parts.getLast? with
  | none =>
    rw [hlast] at hempty
    exact absurd rfl hempty
  | some x =>
    obtain ⟨names, hnames⟩ := List.getLast?_eq_some_iff.mp hlast
    simp [hnames]

/-- **A path to a file ends with a name**, if it does not end with `..`. -/
theorem of_file (hends : path.endsInName = true) {bytes : List UInt8} {mode : Nat}
    (hfile : d.entryAt path = .ok (.file bytes mode)) : EndsInName path := by
  obtain ⟨hup, hparts⟩ := parts_eq hends
  obtain ⟨p, hp, hlook⟩ := entryAt_eq_ok_iff.mp hfile
  obtain ⟨-, hwalk⟩ := locate_eq_ok_iff.mp hp
  rw [hparts] at hwalk
  -- a path that ends with a dot or a slash leads to a directory
  have hstay : ¬ (path.name = dotName ∨ path.name = slashName) := by
    intro hstay
    obtain ⟨m, hm⟩ := hwalk.directory_of_stay hstay
    rw [hlook] at hm
    simp at hm
  exact ⟨⟨hup, fun h => hstay (.inl h), fun h => hstay (.inr h)⟩, hparts⟩

end EndsInName

end Stencil.Disk
