import Stencil.Proofs.Disk.Replace
import Stencil.Proofs.Disk.Site

/-!
# Stencil — requests about paths below a site

What a request is answered when its path goes down from a site depends on what
lies there only, and what it changes lies there too. `SameEdit` says both of a
request that is put to two disks with the same below the site: it is refused
by both, or it changes both in the same way.

Main results:

* `Down.exists_eq` and its like — what is asked about a path;
* `Down.makeDirectory_sameEdit` and its like — what is changed by way of a path.
-/

namespace Stencil.Disk

/-! ## Changes below a place -/

/-- Something may have changed at a place and below it; directories and links are
kept. -/
structure ChangedBelow (top : Place) (d d' : Disk) : Prop where
  kept : Kept d d'
  other : ∀ q, ¬ top <:+ q → d'.look q = d.look q

namespace ChangedBelow

variable {d d' d'' : Disk} {top place : Place} {e : Entry}

theorem trans (h : ChangedBelow top d d') (h' : ChangedBelow top d' d'') :
    ChangedBelow top d d'' :=
  ⟨h.kept.trans h'.kept, fun q hq => (h'.other q hq).trans (h.other q hq)⟩

/-- One place changes from a leaf to what is no link. -/
private theorem of_place (hbelow : top <:+ place) (hhere : d'.here = d.here)
    (hleaf : IsLeaf (d.look place)) (hlink : ∀ target, d'.look place ≠ some (.link target))
    (hother : ∀ q, q ≠ place → d'.look q = d.look q) : ChangedBelow top d d' := by
  refine ⟨⟨hhere, fun q mode hq => ?_, fun q target => ?_⟩, fun q hq => hother q ?_⟩
  · have hne : q ≠ place := by
      rintro rfl
      rw [hq] at hleaf
      exact hleaf.elim
    rw [hother q hne, hq]
  · by_cases hq : q = place
    · subst hq
      refine ⟨fun h => (hlink target h).elim, fun h => ?_⟩
      rw [h] at hleaf
      exact hleaf.elim
    · rw [hother q hq]
  · rintro rfl
    exact hq hbelow

theorem put (hbelow : top <:+ place) (hleaf : IsLeaf (d.look place))
    (he : ∀ target, e ≠ .link target) : ChangedBelow top d (d.put place e) := by
  have hne : place ≠ [] := by
    rintro rfl
    simp [IsLeaf] at hleaf
  refine of_place hbelow rfl hleaf (fun target h => ?_) fun q hq => look_put_of_ne d e hq
  rw [look_put_self d e hne] at h
  exact he target (Option.some.inj h)

theorem erase (hbelow : top <:+ place) (hleaf : IsLeaf (d.look place)) :
    ChangedBelow top d (d.erase place) := by
  have hne : place ≠ [] := by
    rintro rfl
    simp [IsLeaf] at hleaf
  refine of_place hbelow rfl hleaf (fun target h => ?_) fun q hq => look_erase_of_ne d hq
  rw [look_erase d place hne, if_pos rfl] at h
  simp at h

/-- A file is moved over a file or nothing. -/
theorem move {origin : Place} {bytes : List UInt8} {mode : Nat} (horigin : top <:+ origin)
    (hfile : d.look origin = some (.file bytes mode)) (hbelow : top <:+ place)
    (hleaf : IsLeaf (d.look place)) :
    ChangedBelow top d ((d.erase origin).put place (.file bytes mode)) := by
  refine (ChangedBelow.erase horigin (by rw [hfile]; trivial)).trans (.put hbelow ?_ (by simp))
  by_cases hsame : place = origin
  · have hne : origin ≠ [] := by
      rintro rfl
      simp at hfile
    rw [hsame, look_erase d origin hne, if_pos rfl]
    trivial
  · rwa [look_erase_of_ne d hsame]

end ChangedBelow

namespace SameBelow

variable {d d' : Disk} {top place : Place}

theorem put (h : SameBelow top d d') (place : Place) (e : Entry) :
    SameBelow top (d.put place e) (d'.put place e) := by
  refine ⟨h.here, fun q hq => ?_⟩
  by_cases hnil : q = []
  · subst hnil
    rfl
  · rw [look_put d place e hnil, look_put d' place e hnil, h.look q hq]

theorem erase (h : SameBelow top d d') (place : Place) :
    SameBelow top (d.erase place) (d'.erase place) := by
  refine ⟨h.here, fun q hq => ?_⟩
  by_cases hnil : q = []
  · subst hnil
    rfl
  · rw [look_erase d place hnil, look_erase d' place hnil, h.look q hq]

end SameBelow

/-- Two disks with the same below a place refuse a request for the same reason, or
both change there in the same way. -/
inductive SameEdit (top : Place) (d d' : Disk) : Except Fault Disk → Except Fault Disk → Prop
  | refused (fault : Fault) : SameEdit top d d' (.error fault) (.error fault)
  | changed {e e' : Disk} (hd : ChangedBelow top d e) (hd' : ChangedBelow top d' e')
      (hsame : SameBelow top e e') : SameEdit top d d' (.ok e) (.ok e')

namespace SameEdit

variable {d d' : Disk} {top place : Place} (hsame : SameBelow top d d') (hbelow : top <:+ place)
  (hleaf : IsLeaf (d.look place))

include hsame hbelow hleaf

/-- What is a leaf on one disk is a leaf on the other. -/
private theorem isLeaf_right : IsLeaf (d'.look place) := by
  rwa [hsame.look place hbelow]

theorem put {e : Entry} (he : ∀ target, e ≠ .link target) :
    SameEdit top d d' (.ok (d.put place e)) (.ok (d'.put place e)) :=
  .changed (.put hbelow hleaf he) (.put hbelow (isLeaf_right hsame hbelow hleaf) he)
    (hsame.put place e)

theorem erase : SameEdit top d d' (.ok (d.erase place)) (.ok (d'.erase place)) :=
  .changed (.erase hbelow hleaf) (.erase hbelow (isLeaf_right hsame hbelow hleaf))
    (hsame.erase place)

theorem move {origin : Place} {bytes : List UInt8} {mode : Nat} (horigin : top <:+ origin)
    (hfile : d.look origin = some (.file bytes mode)) :
    SameEdit top d d' (.ok ((d.erase origin).put place (.file bytes mode)))
      (.ok ((d'.erase origin).put place (.file bytes mode))) := by
  have hfile' : d'.look origin = some (.file bytes mode) := by
    rw [hsame.look origin horigin, hfile]
  exact .changed (.move horigin hfile hbelow hleaf)
    (.move horigin hfile' hbelow (isLeaf_right hsame hbelow hleaf))
    ((hsame.erase origin).put place _)

end SameEdit

namespace Down

variable {d d' : Disk} {base p : Path} {top : Place} {names : List String}

section Questions

variable (h : Down base top names p) (hd : Site d base top) (hd' : Site d' base top)
  (hsame : SameBelow top d d')

include h hd hd' hsame

/-! ## Questions -/

theorem exists_eq : d'.exists? p = d.exists? p := by
  rw [exists?, exists?, probe, probe, h.entryAt_eq hd hd' hsame]

theorem isFile_eq : d'.isFile? p = d.isFile? p := by
  rw [isFile?, isFile?, probe, probe, h.entryAt_eq hd hd' hsame]

theorem isDirectory_eq : d'.isDirectory? p = d.isDirectory? p := by
  rw [isDirectory?, isDirectory?, probe, probe, h.entryAt_eq hd hd' hsame]

theorem read_eq : d'.read p = d.read p := by
  rw [read, read, h.entryAt_eq hd hd' hsame]

theorem modeAt_eq : d'.modeAt p = d.modeAt p := by
  rw [modeAt, modeAt, h.entryAt_eq hd hd' hsame]

/-! ## Changes -/

theorem makeDirectory_sameEdit :
    SameEdit top d d' (d.makeDirectory p) (d'.makeDirectory p) := by
  rw [makeDirectory, makeDirectory, h.locate_eq hd hd' hsame (by simp)]
  split
  · exact .refused _
  cases hp : d.locate .atLink p with
  | error code => exact .refused _
  | ok place =>
    have hbelow := h.suffix hd (by simp) hp
    simp only [hsame.look place hbelow]
    cases hplace : d.look place with
    | some e => exact .refused _
    | none => exact .put hsame hbelow (by rw [hplace]; trivial) (by simp)

theorem fill_sameEdit (content : List UInt8) :
    SameEdit top d d' (d.fill p content) (d'.fill p content) := by
  rw [fill, fill, changeFile, changeFile, h.locate_eq hd hd' hsame (by simp)]
  cases hp : d.locate .beyond p with
  | error code => exact .refused _
  | ok place =>
    have hbelow := h.suffix hd (by simp) hp
    simp only [hsame.look place hbelow]
    cases hplace : d.look place with
    | none => exact .refused _
    | some e =>
      cases e with
      | file bytes mode => exact .put hsame hbelow (by rw [hplace]; trivial) (by simp)
      | directory mode => exact .refused _
      | link target => exact .refused _

/-- The permissions of a file. -/
theorem setMode_sameEdit {place : Place} {bytes : List UInt8} {mode : Nat}
    (hp : d.locate .atLink p = .ok place) (hfile : d.look place = some (.file bytes mode))
    (mode' : Nat) : SameEdit top d d' (d.setMode p mode') (d'.setMode p mode') := by
  have hbelow := h.suffix hd (by simp) hp
  have hlook := hsame.look place hbelow
  rw [hfile] at hlook
  have hp' : d'.locate .atLink p = .ok place := by rw [h.locate_eq hd hd' hsame (by simp), hp]
  cases hnul : p.hasNul with
  | true =>
    rw [setMode, setMode, hnul]
    exact .refused _
  | false =>
    rw [setMode_eq hnul hp hfile, setMode_eq hnul hp' hlook]
    exact .put hsame hbelow (by rw [hfile]; trivial) (by simp)

theorem remove_sameEdit : SameEdit top d d' (d.remove p) (d'.remove p) := by
  rw [remove, remove, h.locate_eq hd hd' hsame (by simp)]
  split
  · exact .refused _
  cases hp : d.locate .atLink p with
  | error code => exact .refused _
  | ok place =>
    have hbelow := h.suffix hd (by simp) hp
    simp only [hsame.look place hbelow]
    cases hplace : d.look place with
    | none => exact .refused _
    | some e =>
      cases e with
      | file bytes mode => exact .erase hsame hbelow (by rw [hplace]; trivial)
      | directory mode => exact .refused _
      | link target => exact (hd.noLinks place target hbelow hplace).elim

/-- A file that is moved. -/
theorem rename_sameEdit {target : Path} {names' : List String}
    (htarget : Down base top names' target) {origin : Place} {bytes : List UInt8} {mode : Nat}
    (hp : d.locate .atLink p = .ok origin) (hfile : d.look origin = some (.file bytes mode)) :
    SameEdit top d d' (d.rename p target) (d'.rename p target) := by
  have horigin := h.suffix hd (by simp) hp
  have hfile' : d'.look origin = some (.file bytes mode) := by rw [hsame.look origin horigin, hfile]
  rw [rename, rename, h.locate_eq hd hd' hsame (by simp), htarget.locate_eq hd hd' hsame (by simp),
    hp]
  split
  · exact .refused _
  cases hplace : d.locate .atLink target with
  | error code => exact .refused _
  | ok place =>
    have hbelow := htarget.suffix hd (by simp) hplace
    simp only [hfile, hfile', hsame.look place hbelow]
    split
    · exact .refused _
    -- a file or nothing at the new place gives way to the file
    cases hentry : d.look place with
    | none => exact .move hsame hbelow (by rw [hentry]; trivial) horigin hfile
    | some e =>
      cases e with
      | file bytes' mode' =>
        exact .move hsame hbelow (by rw [hentry]; trivial) horigin hfile
      | directory mode' => exact .refused _
      | link target' => exact (hd.noLinks place target' hbelow hentry).elim

end Questions

end Down

/-- A temporary file is made below the site on both disks, or on none. -/
theorem Site.makeTemporary_cases {d d' : Disk} {base : Path} {top : Place} {names : List String}
    (h : Site d base top) (h' : Site d' base top) (hsame : SameBelow top d d')
    (hplain : ∀ x ∈ names, IsName x) (last : String) :
    (∃ fault, d.makeTemporary (pathBelow base (names ++ [last])) = .error fault ∧
        d'.makeTemporary (pathBelow base (names ++ [last])) = .error fault) ∨
      ∃ t e e', d.makeTemporary (pathBelow base (names ++ [last])) = .ok (t, e) ∧
        d'.makeTemporary (pathBelow base (names ++ [last])) = .ok (t, e') ∧
        ChangedBelow top d e ∧ ChangedBelow top d' e' ∧ SameBelow top e e' := by
  obtain ⟨hpath, n, hdown⟩ := h.temporaryPath_eq h' hsame hplain last
  cases hmade : d.makeTemporary (pathBelow base (names ++ [last])) with
  | error fault =>
    refine .inl ⟨fault, rfl, ?_⟩
    rw [makeTemporary] at hmade ⊢
    rw [hpath, hdown.locate_eq h h' hsame (by simp)]
    split at hmade
    · rename_i hnul
      rw [if_pos hnul, hmade]
    · rename_i hnul
      rw [if_neg hnul]
      cases hp : d.locate .atLink (d.temporaryPath (pathBelow base (names ++ [last]))) with
      | error code => simpa [hp] using hmade
      | ok place => simp [hp] at hmade
  | ok made =>
    obtain ⟨t, e⟩ := made
    obtain ⟨rfl, hnul, place, hp, hnone, rfl⟩ := makeTemporary_eq_ok_iff.mp hmade
    have hbelow := hdown.suffix h (by simp) hp
    have hnone' : d'.look place = none := by rw [hsame.look place hbelow, hnone]
    refine .inr ⟨_, _, _, rfl,
      makeTemporary_eq_ok_iff.mpr ⟨hpath.symm, hnul, place, ?_, hnone', rfl⟩,
      .put hbelow (by rw [hnone]; trivial) (by simp),
      .put hbelow (by rw [hnone']; trivial) (by simp), hsame.put place _⟩
    rw [hdown.locate_eq h h' hsame (by simp), hp]

end Stencil.Disk
