import Stencil.Proofs.Module.Contract

/-!
# Stencil — files beside each other

Some files are written to one directory, one after the other. The first write may
have to make the directory. It comes upon nothing then, unless the path of the
directory turns back with a `..` from one that has to be made as well. From then on
the directory is there, and a write changes the one file and nothing else: every
other name in the directory leads to the file that it led to, or to none still.

Main results:

* `StoredIn.of_stored` — what lay where the directory was made: nothing;
* `StoredIn.fresh`, `StoredIn.there` — what a file takes the place of;
* `StoredIn.beside` — the other names in the directory;
* `StoredIn.ready` — and the next file can be written there.
-/

namespace Stencil.Module

open Stencil.Disk

variable {base path : Path} {last : String} {r : Place} {w w' w'' : World}

/-! ## Directories to write to -/

/-- A directory that files can be written to, on a disk without links: it is there, or
its path turns back only behind names that lead somewhere. -/
structure Ready (base : Path) (w : World) : Prop where
  normal : base.IsNormal
  noLinks : NoLinksBelow w.disk []
  way : w.disk.isDirectory? base = .ok true ∨ IsTree w.disk ∧ w.disk.Grounded base

/-- A record of what was done makes no difference to it. -/
theorem Ready.logged (h : Ready base w) (hlogged : World.Logged w w') : Ready base w' := by
  have hshape := hlogged.sameShape
  refine ⟨h.normal, h.noLinks.grown hlogged.grown, ?_⟩
  rcases h.way with hthere | ⟨htree, hgrounded⟩
  · exact .inl ((hshape.isDirectory_eq base).trans hthere)
  · refine .inr ⟨fun name q hq => ?_, fun outer rest hparts => ?_⟩
    · have hsome : (w.disk.look (name :: q)).isSome := by
        rcases hshape.look (name :: q) with heq | ⟨⟨_, _, hfile⟩, -⟩
        · rwa [← heq]
        · rw [hfile]
          rfl
      obtain ⟨mode, hmode⟩ := htree name q hsome
      exact ⟨mode, hlogged.grown.directory hmode⟩
    · rw [hshape.exists_eq]
      exact hgrounded outer rest hparts

/-! ## One file in a directory -/

/-- A file was written to a directory. If the directory was not there, neither was
anything at its place or below it. -/
structure StoredIn (base : Path) (last : String) (bytes : List UInt8) (mode : Nat) (r : Place)
    (w between w' : World) : Prop
    extends Stored (base.child last) bytes mode (last :: r) w between w' where
  normal : base.IsNormal
  isName : IsName last
  noLinks : NoLinksBelow w.disk []
  site : between.disk.locate .beyond base = .ok r
  new : between = w ∨ ∀ q, r <:+ q → w.disk.look q = none

/-- **The directory of a file that was written** was there, or its place was free. -/
theorem StoredIn.of_stored {bytes : List UInt8} {mode : Nat} {p : Place} {between : World}
    (hready : Ready base w) (hname : IsName last)
    (h : Stored (base.child last) bytes mode p w between w') :
    ∃ r, p = last :: r ∧ StoredIn base last bytes mode r w between w' := by
  have hlast : (base.child last).name = last := by simp [Path.name, Path.child]
  obtain ⟨r, m, hp, hsite, -⟩ := h.name.locate_parent h.place
  rw [hlast] at hp
  subst hp
  rw [parent_child] at hsite
  have hensured := h.ensured
  rw [parent_child] at hensured
  refine ⟨r, rfl, h, hready.normal, hname, hready.noLinks, hsite, ?_⟩
  -- either nothing had to be made, or the first directory to be made was missing
  rcases hensured.begun rfl with hsame | hbegins
  · exact .inl hsame
  · rcases hready.way with hthere | ⟨htree, hgrounded⟩
    · -- a directory that is there is not made
      obtain ⟨hnul, m, hentry⟩ := isDirectory_eq_true_iff.mp hthere
      exact (not_begins (exists_of_entryAt hnul hentry) hbegins).elim
    · obtain ⟨top, m', htop, -, hnone⟩ := look_eq_none_of_begins_self htree hensured.paved.grown
        hready.normal hgrounded hbegins (hensured.there rfl)
      obtain rfl := Except.ok.inj (htop.symm.trans hsite)
      exact .inr fun q hq => htree.look_eq_none hnone hq

namespace StoredIn

variable {bytes : List UInt8} {mode : Nat} {between : World}

theorem placed (h : StoredIn base last bytes mode r w between w') :
    Placed (base.child last) bytes (last :: r) w w' :=
  h.toStored.placed h.noLinks (h.normal.child h.isName)

/-- The file takes the place of a file or of nothing. -/
theorem grown (h : StoredIn base last bytes mode r w between w') :
    Grown (· = last :: r) between.disk w'.disk :=
  h.replaced.grown ((h.noLinks.grown h.widened.disk).isLeaf List.nil_suffix h.directory)

/-- The path leads to the place of the file before it is there. -/
theorem locate_beyond (h : StoredIn base last bytes mode r w between w') :
    between.disk.locate .beyond (base.child last) = .ok (last :: r) :=
  locate_beyond_of_none h.place fun target =>
    h.noLinks.grown h.widened.disk _ target List.nil_suffix

/-- **A path that led nowhere** has not come to anything that was there. -/
theorem fresh (h : StoredIn base last bytes mode r w between w')
    (hmissing : w.disk.exists? (base.child last) = .ok false) :
    w.disk.look (last :: r) = none := by
  rcases h.new with rfl | hfree
  · cases hlook : between.disk.look (last :: r) with
    | none => rfl
    | some e =>
      have hentry := entryAt_eq_ok_iff.mpr ⟨_, h.locate_beyond, hlook⟩
      rw [exists_of_entryAt h.hasNul hentry] at hmissing
      simp at hmissing
  · exact hfree _ (List.suffix_cons last r)

/-- **What was there** and has been replaced was a file. -/
theorem there (h : StoredIn base last bytes mode r w between w')
    (hthere : w.disk.exists? (base.child last) = .ok true) :
    ∃ old, w.disk.read (base.child last) = .ok old := by
  obtain ⟨hnul, e, hentry⟩ := exists_eq_true_iff.mp hthere
  obtain ⟨q, hq, hlook⟩ := entryAt_eq_ok_iff.mp (h.ensured.paved.entryAt hentry)
  obtain rfl := Except.ok.inj (h.locate_beyond.symm.trans hq)
  cases e with
  | file old m => exact ⟨old, read_eq_ok_iff.mpr ⟨hnul, m, hentry⟩⟩
  | directory m => exact (h.directory m hlook).elim
  | link target =>
    exact (h.noLinks.grown h.widened.disk _ target List.nil_suffix hlook).elim

/-- Afterwards the directory is there, with its names. -/
theorem below (h : StoredIn base last bytes mode r w between w') {x : String} (hx : IsName x) :
    Below w'.disk base r [x] := by
  obtain ⟨-, m, hentry⟩ := isDirectory_eq_true_iff.mp (h.ensured.there rfl)
  rw [parent_child] at hentry
  obtain ⟨q, hq, hlook⟩ := entryAt_eq_ok_iff.mp hentry
  obtain rfl := Except.ok.inj (h.site.symm.trans hq)
  exact ⟨locate_kept h.grown.kept h.site, ⟨m, h.grown.directory hlook⟩,
    fun q target _ => h.noLinks.grown h.placed.reached.grown q target List.nil_suffix,
    by simpa using hx, by simp⟩

/-- **The next file** can be written to the directory. -/
theorem ready (h : StoredIn base last bytes mode r w between w') : Ready base w' := by
  have hthere := h.ensured.there rfl
  rw [parent_child] at hthere
  exact ⟨h.normal, h.noLinks.grown h.placed.reached.grown,
    .inl (isDirectory_kept h.grown.kept hthere)⟩

end StoredIn

/-! ## The other names -/

/-- A path leads to the same file as before, or to none still. -/
structure Beside (path : Path) (w w' : World) : Prop where
  read_iff : ∀ bytes, w'.disk.read path = .ok bytes ↔ w.disk.read path = .ok bytes
  missing : w'.disk.exists? path = .ok false → w.disk.exists? path = .ok false
  unlogged : Unlogged w' path

namespace Beside

theorem trans (h : Beside path w w') (h' : Beside path w' w'') : Beside path w w'' :=
  ⟨fun bytes => (h'.read_iff bytes).trans (h.read_iff bytes),
    fun hmissing => h.missing (h'.missing hmissing), h'.unlogged⟩

theorem of_logged (h : Unlogged w path) (hlogged : World.Logged w w') : Beside path w w' := by
  refine ⟨fun bytes => ?_, fun hmissing => ?_, h.logged hlogged⟩
  · rw [hlogged.read_eq h]
  · rwa [hlogged.sameShape.exists_eq] at hmissing

end Beside

section OtherName

variable {bytes : List UInt8} {mode : Nat} {between : World} {x : String}

/-- Another name leads to where it led, if there was a file. -/
private theorem locate_back (h : StoredIn base last bytes mode r w between w') (hx : IsName x)
    (hne : x ≠ last) {q : Place} (hq : w'.disk.locate .beyond (base.child x) = .ok q)
    {b : List UInt8} {m : Nat} (hfile : w.disk.look q = some (.file b m)) :
    w.disk.locate .beyond (base.child x) = .ok q := by
  have hbelow := h.below hx
  obtain rfl : q = x :: r := hbelow.place_eq (by simp) hq
  rcases h.new with rfl | hfree
  · -- the directory was there, so only the other file has changed
    have hlink : w'.disk.locate .atLink (base.child x) = .ok (x :: r) :=
      (hbelow.locate_eq_ok (by simp)).mpr ((hbelow.locate_eq_ok (by simp)).mp hq)
    have hback := h.replaced.locate_back hlink (by simp [hne])
    exact locate_beyond_of_none hback (by simp [hfile])
  · rw [hfree _ (List.suffix_cons x r)] at hfile
    simp at hfile

/-- **The other names in the directory** lead to what they led to. -/
theorem StoredIn.beside (h : StoredIn base last bytes mode r w between w') (hx : IsName x)
    (hne : x ≠ last) (hunlogged : Unlogged w (base.child x)) : Beside (base.child x) w w' := by
  have hgrown := h.placed.reached.grown
  have hplace : ∀ q, w'.disk.locate .beyond (base.child x) = .ok q → q ≠ last :: r := by
    intro q hq
    rw [(h.below hx).place_eq (by simp) hq]
    simp [hne]
  refine ⟨fun b => ⟨fun hread => ?_, fun hread => ?_⟩, ?_, fun q hq hlog => ?_⟩
  · obtain ⟨hnul, m, hentry⟩ := read_eq_ok_iff.mp hread
    obtain ⟨q, hq, hlook⟩ := entryAt_eq_ok_iff.mp hentry
    have hback := hgrown.file_back (hplace q hq) hlook
    exact read_eq_ok_iff.mpr ⟨hnul, m, entryAt_eq_ok_iff.mpr
      ⟨q, locate_back h hx hne hq hback, hback⟩⟩
  · obtain ⟨hnul, m, hentry⟩ := read_eq_ok_iff.mp hread
    obtain ⟨q, hq, hlook⟩ := entryAt_eq_ok_iff.mp hentry
    have hq' := locate_kept hgrown.kept hq
    exact read_eq_ok_iff.mpr ⟨hnul, m, entryAt_eq_ok_iff.mpr
      ⟨q, hq', hgrown.look_eq_some (hplace q hq') hlook⟩⟩
  · -- a path that leads nowhere now led nowhere before
    refine exists_kept_back hgrown.kept fun q hq hsome => ?_
    obtain ⟨e, he⟩ := Option.isSome_iff_exists.mp hsome
    rw [hgrown.look_eq_some (hplace q (locate_kept hgrown.kept hq)) he]
    rfl
  · -- the log file would have been where the name leads before
    have hlog' := h.placed.reached.isLog q hlog
    obtain ⟨-, b, m, hfile⟩ := hlog'
    exact hunlogged q (locate_back h hx hne hq hfile) (h.placed.reached.isLog q hlog)

end OtherName

end Stencil.Module
