import Mathlib.Data.List.Infix
import Stencil.Proofs.Disk.Below
import Stencil.Proofs.Text.Pieces

/-!
# Stencil — paths on a disk without links

On a disk without links a path spells the place it leads to: every `..` takes
away the name before it. Two paths are apart if the way of neither comes into
what the other one spells; for paths without `..` this only says that neither
place lies in the other. A path leads on as before, or nowhere for the same
reason, while the disk changes where its way does not come.

Main results:

* `Walks.spelled` — the place that a path leads to;
* `apart_iff` — when paths without `..` are apart;
* `isDirectory_eq` — whether a path leads to a directory, after such changes.
-/

namespace Stencil.Disk

/-! ## Plain disks -/

/-- A name that a disk can hold. -/
structure IsEntryName (name : String) : Prop where
  isName : IsName name
  noNul : '\x00' ∉ name.toList
  fits : name.utf8ByteSize ≤ nameLimit

theorem isEntryName_iff {name : String} :
    IsEntryName name ↔
      (name ≠ ".." ∧ name ≠ dotName ∧ name ≠ slashName) ∧ '\x00' ∉ name.toList ∧
        name.utf8ByteSize ≤ nameLimit :=
  ⟨fun h => ⟨⟨h.isName.ne_up, h.isName.ne_dot, h.isName.ne_slash⟩, h.noNul, h.fits⟩,
    fun h => ⟨⟨h.1.1, h.1.2.1, h.1.2.2⟩, h.2.1, h.2.2⟩⟩

instance : DecidablePred IsEntryName := fun _ => decidable_of_iff' _ isEntryName_iff

/-- A disk without links. Everything lies in a directory, under a name that a
disk can hold, and the working directory is there. -/
structure IsPlain (d : Disk) : Prop where
  tree : IsTree d
  noLinks : ∀ q target, d.look q ≠ some (.link target)
  named : ∀ name q, (d.look (name :: q)).isSome → IsEntryName name
  here : ∃ mode, d.look d.here = some (.directory mode)

namespace IsPlain

variable {d : Disk} {q : Place}

/-- Around what is there are directories. -/
theorem directory_tail (h : IsPlain d) {mode : Nat} (hq : d.look q = some (.directory mode)) :
    ∃ mode', d.look q.tail = some (.directory mode') := by
  cases q with
  | nil => exact ⟨mode, hq⟩
  | cons name q => exact h.tree name q (by rw [hq]; rfl)

theorem directory_around (h : IsPlain d) {p : Place} (hp : (d.look p).isSome)
    (hdir : ∃ mode, d.look p = some (.directory mode)) (hq : q <:+ p) :
    ∃ mode, d.look q = some (.directory mode) := by
  obtain ⟨front, rfl⟩ := hq
  by_cases hfront : front = []
  · rwa [hfront] at hdir
  · exact h.tree.directory_above hfront hp

/-- Every name of what is there is one that a disk can hold. -/
theorem entryName_of_mem (h : IsPlain d) (hq : (d.look q).isSome) :
    ∀ name ∈ q, IsEntryName name := by
  intro name hname
  obtain ⟨front, rest, rfl⟩ := List.append_of_mem hname
  refine h.named name rest ?_
  by_cases hfront : front = []
  · rwa [hfront] at hq
  · obtain ⟨mode, hmode⟩ := h.tree.directory_above hfront hq
    rw [hmode]
    rfl

theorem start (h : IsPlain d) (p : Path) :
    ∃ mode, d.look (d.start p) = some (.directory mode) := by
  rw [Disk.start]
  split
  · exact h.here
  · exact ⟨_, look_nil d⟩

end IsPlain

/-- Whether a disk is plain can be told by its entries. -/
theorem isPlain_of_entries {d : Disk}
    (htree : ∀ p ∈ d.entries, (d.look p.1.tail).any Entry.isDirectory = true)
    (hplain : ∀ p ∈ d.entries, p.2.isFile = true ∨ p.2.isDirectory = true)
    (hnamed : ∀ p ∈ d.entries, ∀ name ∈ p.1, IsEntryName name)
    (hhere : d.look d.here = some (.directory newDirectoryMode)) : IsPlain d where
  tree := isTree_of_entries htree
  noLinks q target := by
    have hlinks : NoLinksBelow d [] := noLinksBelow_of_entries hplain
    exact hlinks q target List.nil_suffix
  named name q hq := by
    obtain ⟨e, he⟩ := Option.isSome_iff_exists.mp hq
    exact hnamed _ (mem_entries_of_look (List.cons_ne_nil name q) he) name List.mem_cons_self
  here := ⟨_, hhere⟩

/-! ## The place that a path spells -/

/-- A path without the names that make no difference. -/
def Path.IsNormal (p : Path) : Prop :=
  ∀ x ∈ p.parts, x ≠ dotName ∧ x ≠ slashName

instance (p : Path) : Decidable p.IsNormal :=
  inferInstanceAs (Decidable (∀ x ∈ p.parts, x ≠ dotName ∧ x ≠ slashName))

/-- What a text writes is normal. -/
theorem Path.ofText_isNormal (text : String) : (Path.ofText text).IsNormal := by
  intro x hx
  obtain ⟨hpiece, hplain⟩ := List.mem_filter.mp hx
  obtain ⟨piece, hmem, rfl⟩ := List.mem_map.mp hpiece
  refine ⟨(of_decide_eq_true hplain).2, fun hslash => ?_⟩
  -- no piece holds a slash
  have hchars := congrArg String.toList hslash
  rw [String.toList_ofList] at hchars
  exact (Text.mem_of_mem_pieces hmem '/' (by rw [hchars]; decide)).2 rfl

/-- The place that a path spells. -/
def spelled (d : Disk) (p : Path) : Place :=
  foldNames (d.start p) p.parts

theorem foldNames_append (q : Place) (names rest : List String) :
    foldNames q (names ++ rest) = foldNames (foldNames q names) rest := by
  induction names generalizing q with
  | nil => rfl
  | cons name names ih => exact ih _

theorem foldNames_plain (q : Place) {names : List String} (h : ∀ x ∈ names, x ≠ "..") :
    foldNames q names = names.reverse ++ q := by
  induction names generalizing q with
  | nil => rfl
  | cons name rest ih =>
    rw [foldNames, if_neg (h name (by simp)), ih _ fun x hx => h x (by simp [hx]),
      List.reverse_cons, List.append_assoc]
    rfl

/-- **Without links a walk leads to the place that its names spell.** -/
theorem Walks.spelled {d : Disk} {arrival : Arrival} {links : Nat} {q p : Place}
    {names : List String} (h : Walks d arrival links q names p)
    (hlinks : ∀ q target, d.look q ≠ some (.link target))
    (hnormal : ∀ x ∈ names, x ≠ dotName ∧ x ≠ slashName) : p = foldNames q names := by
  -- one case for each way to pass a name; only links could lead elsewhere
  induction h with
  | stop links q => rfl
  | up hdir _ ih =>
    rw [foldNames, if_pos rfl]
    exact ih fun x hx => hnormal x (by simp [hx])
  | stay hdir hname _ _ =>
    have hne := hnormal _ List.mem_cons_self
    exact (hname.elim hne.1 hne.2).elim
  | into hdir hname hnext _ ih =>
    rw [foldNames, if_neg hname.ne_up]
    exact ih fun x hx => hnormal x (by simp [hx])
  | leaf hdir hname hleaf => rw [foldNames, if_neg hname.ne_up, foldNames]
  | atLink hdir hname hlink harrival => exact (hlinks _ _ hlink).elim
  | follow hdir hname hlink hend _ _ => exact (hlinks _ _ hlink).elim

/-! ## Ways -/

/-- The places that names lead into from a place, and the one they end at. -/
def trail : Place → List String → List Place
  | place, [] => [place]
  | place, name :: rest =>
    if name = ".." then trail place.tail rest
    else (name :: place) :: trail (name :: place) rest

theorem foldNames_mem_trail (q : Place) (names : List String) :
    foldNames q names ∈ trail q names := by
  induction names generalizing q with
  | nil => exact List.mem_singleton_self q
  | cons name rest ih =>
    rw [foldNames, trail]
    split
    · exact ih _
    · exact List.mem_cons_of_mem _ (ih _)

/-- The way of a path does not come into the place that another one spells. -/
def Avoids (d : Disk) (p p' : Path) : Prop :=
  ∀ q ∈ trail (d.start p) p.parts, ¬ d.spelled p' <:+ q

/-- Neither of two paths comes into the place of the other. -/
def Apart (d : Disk) (p p' : Path) : Prop :=
  d.Avoids p p' ∧ d.Avoids p' p

theorem Avoids.not_suffix {d : Disk} {p p' : Path} (h : d.Avoids p p') :
    ¬ d.spelled p' <:+ d.spelled p :=
  h _ (foldNames_mem_trail _ _)

/-- The way of names other than `..` only goes down. -/
private theorem suffix_of_mem_trail {q : Place} {names : List String} (h : ∀ x ∈ names, x ≠ "..") :
    ∀ t ∈ trail q names, t <:+ foldNames q names := by
  -- on the names; every name goes further in, so what is passed stays around
  induction names generalizing q with
  | nil =>
    intro t ht
    rw [List.mem_singleton.mp ht]
    exact List.suffix_refl q
  | cons name rest ih =>
    have hrest : ∀ x ∈ rest, x ≠ ".." := fun x hx => h x (by simp [hx])
    rw [trail, foldNames, if_neg (h name (by simp)), if_neg (h name (by simp))]
    intro t ht
    rcases List.mem_cons.mp ht with rfl | ht
    · rw [foldNames_plain _ hrest]
      exact List.suffix_append _ _
    · exact ih hrest t ht

/-- **Paths without `..` are apart** if neither place lies in the other. -/
theorem apart_iff {d : Disk} {p p' : Path} (hp : ".." ∉ p.parts) (hp' : ".." ∉ p'.parts) :
    d.Apart p p' ↔ ¬ d.spelled p' <:+ d.spelled p ∧ ¬ d.spelled p <:+ d.spelled p' := by
  refine ⟨fun h => ⟨h.1.not_suffix, h.2.not_suffix⟩, fun h => ⟨?_, ?_⟩⟩
  · intro q hq hsuffix
    exact h.1 (hsuffix.trans (suffix_of_mem_trail (fun x hx => ne_of_mem_of_not_mem hx hp) q hq))
  · intro q hq hsuffix
    exact h.2 (hsuffix.trans (suffix_of_mem_trail (fun x hx => ne_of_mem_of_not_mem hx hp') q hq))

/-! ## Changes off the way -/

/-- At a place there is what was there, but for the content of a file. -/
def SameAt (d d' : Disk) (q : Place) : Prop :=
  d'.look q = d.look q ∨ (∃ bytes mode, d.look q = some (.file bytes mode)) ∧
    ∃ bytes mode, d'.look q = some (.file bytes mode)

section OffTheWay

variable {d d' : Disk}

/-- A walk comes to the same end if nothing has changed on its way. -/
theorem walk_eq_of_trail (hd : IsPlain d) (hkept : Kept d d') {arrival : Arrival}
    (harrival : arrival ≠ .making) {links : Nat} {q : Place} {names : List String}
    (hnormal : ∀ x ∈ names, x ≠ dotName ∧ x ≠ slashName)
    (hq : ∃ mode, d.look q = some (.directory mode)) (hsame : ∀ t ∈ trail q names, SameAt d d' t) :
    walk d' arrival links q names = walk d arrival links q names := by
  -- on the names; the walk has come to a directory, which is one on both disks
  induction names generalizing q with
  | nil => rw [walk_nil, walk_nil]
  | cons name rest ih =>
    obtain ⟨mode, hdir⟩ := hq
    have hdir' := hkept.directory q mode hdir
    have hrest : ∀ x ∈ rest, x ≠ dotName ∧ x ≠ slashName := fun x hx => hnormal x (by simp [hx])
    by_cases hup : name = ".."
    · subst hup
      rw [trail, if_pos rfl] at hsame
      rw [walk_up hdir, walk_up hdir', ih hrest (hd.directory_tail hdir) hsame]
    · rw [trail, if_neg hup] at hsame
      have hstay : ¬ (name = dotName ∨ name = slashName) :=
        not_or.mpr (hnormal name (by simp))
      by_cases hlong : nameLimit < name.utf8ByteSize
      · rw [walk_tooLong hdir hup hstay harrival hlong, walk_tooLong hdir' hup hstay harrival hlong]
      · have hpass : Passable arrival name rest :=
          ⟨hup, (hnormal name (by simp)).1, (hnormal name (by simp)).2, fun h => harrival h.1,
            Nat.not_lt.mp hlong⟩
        -- what lies there decides, and it is the same on both disks
        rcases hsame (name :: q) List.mem_cons_self with heq | ⟨⟨_, _, hfile⟩, _, _, hfile'⟩
        · cases hlook : d.look (name :: q) with
          | none =>
            rw [hlook] at heq
            rw [walk_leaf hdir hpass (by rw [hlook]; trivial),
              walk_leaf hdir' hpass (by rw [heq]; trivial), hlook, heq]
          | some e =>
            rw [hlook] at heq
            cases e with
            | directory mode' =>
              rw [walk_into hdir hpass hlook, walk_into hdir' hpass heq]
              exact ih hrest ⟨mode', hlook⟩ fun t ht => hsame t (List.mem_cons_of_mem _ ht)
            | file bytes mode' =>
              rw [walk_leaf hdir hpass (by rw [hlook]; trivial),
                walk_leaf hdir' hpass (by rw [heq]; trivial), hlook, heq]
            | link target => exact (hd.noLinks _ _ hlook).elim
        · rw [walk_leaf hdir hpass (by rw [hfile]; trivial),
            walk_leaf hdir' hpass (by rw [hfile']; trivial), hfile, hfile']
          simp

/-- **Whether a path leads to a directory** does not change, if nothing has
changed on its way. -/
theorem isDirectory_eq (hd : IsPlain d) (hkept : Kept d d') {p : Path} (hnormal : p.IsNormal)
    (hsame : ∀ t ∈ trail (d.start p) p.parts, SameAt d d' t) :
    d'.isDirectory? p = d.isDirectory? p := by
  have hlocate : d'.locate .beyond p = d.locate .beyond p := by
    have hstart : d'.start p = d.start p := by rw [start, start, hkept.here]
    rw [locate, locate, hstart,
      walk_eq_of_trail hd hkept (show Arrival.beyond ≠ .making by simp) hnormal (hd.start p)
        hsame]
  rw [isDirectory?, isDirectory?, probe, probe, entryAt, entryAt, hlocate]
  cases hp : d.locate .beyond p with
  | error code => rfl
  | ok t =>
    -- the way ends where the path leads
    obtain rfl : t = d.spelled p := (locate_eq_ok_iff.mp hp).2.spelled hd.noLinks hnormal
    have hend : SameAt d d' (d.spelled p) := hsame _ (foldNames_mem_trail _ _)
    rcases hend with heq | ⟨⟨_, _, hfile⟩, _, _, hfile'⟩
    · simp only [heq]
    · simp only [hfile, hfile']
      split <;> rfl

end OffTheWay

end Stencil.Disk
