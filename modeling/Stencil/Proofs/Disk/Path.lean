import Mathlib.Data.List.Basic
import Stencil.Disk.Path
import Stencil.Proofs.Text.Pieces

/-!
# Stencil — how paths are written

A text without a slash writes the path of that one name, unless it is empty or
a dot. The names at the end of a written path can be read off it.

Main results:

* `ofText_name` — a text that writes one name;
* `hasNul_eq_false_iff` — paths without the null character;
* `text_append_inj` — paths that differ at the end are written differently.
-/

namespace Stencil.Disk.Path

open Stencil.Text

/-- **A text without a slash is a name.** -/
theorem ofText_name {text : String} (hslash : '/' ∉ text.toList) (hempty : text ≠ "")
    (hdot : text ≠ ".") : ofText text = ⟨.here, [text]⟩ := by
  have hanchor : anchorOf text.toList = .here := by
    rw [anchorOf.eq_def]
    split
    · rename_i heq
      rw [heq] at hslash
      simp at hslash
    · rename_i heq
      rw [heq] at hslash
      simp at hslash
    · rename_i heq
      rw [heq] at hslash
      simp at hslash
    · rfl
  rw [ofText, hanchor, partsOf, pieces_of_notMem hslash]
  simp [hempty, hdot]

/-- A path without the null character has it in no name. -/
theorem hasNul_eq_false_iff {p : Path} : p.hasNul = false ↔ ∀ x ∈ p.parts, '\x00' ∉ x.toList := by
  simp [hasNul]

/-- A path with names is written with slashes between them. -/
theorem text_eq (anchor : Anchor) {parts : List String} (h : parts ≠ []) :
    Path.text ⟨anchor, parts⟩ = anchor.text ++ "/".intercalate parts := by
  obtain ⟨name, rest, rfl⟩ := List.exists_cons_of_ne_nil h
  cases anchor <;> rfl

private theorem intercalate_inj {names names' : List String} (hne : names ≠ []) (hne' : names' ≠ [])
    (hslash : ∀ x ∈ names, '/' ∉ x.toList) (hslash' : ∀ x ∈ names', '/' ∉ x.toList)
    (h : "/".intercalate names = "/".intercalate names') : names = names' := by
  have hchars := congrArg String.toList h
  rw [String.toList_intercalate, String.toList_intercalate] at hchars
  have hpieces : ∀ {ns : List String}, ns ≠ [] → (∀ x ∈ ns, '/' ∉ x.toList) →
      pieces '/' (List.intercalate "/".toList (ns.map String.toList)) = ns.map String.toList := by
    intro ns hns hclean
    refine pieces_intercalate (by simpa using hns) fun part hpart => ?_
    obtain ⟨x, hx, rfl⟩ := List.mem_map.mp hpart
    exact hclean x hx
  -- cut at the slashes again, the names come out
  have hcut := congrArg (pieces '/') hchars
  rw [hpieces hne hslash, hpieces hne' hslash'] at hcut
  exact List.map_injective_iff.mpr (fun _ _ => String.toList_inj.mp) hcut

/-- **Paths that differ at the end are written differently.** -/
theorem text_append_inj {anchor : Anchor} {base names names' : List String} (hne : names ≠ [])
    (hne' : names' ≠ []) (hslash : ∀ x ∈ names, '/' ∉ x.toList)
    (hslash' : ∀ x ∈ names', '/' ∉ x.toList)
    (h : Path.text ⟨anchor, base ++ names⟩ = Path.text ⟨anchor, base ++ names'⟩) :
    names = names' := by
  rw [text_eq anchor (by simp [hne]), text_eq anchor (by simp [hne']),
    String.append_right_inj] at h
  refine intercalate_inj hne hne' hslash hslash' ?_
  by_cases hbase : base = []
  · simpa [hbase] using h
  · rwa [String.intercalate_append_of_ne_nil hbase hne,
      String.intercalate_append_of_ne_nil hbase hne', String.append_right_inj] at h

end Stencil.Disk.Path
