import Stencil.Proofs.Disk.Walk

/-!
# Stencil — below a directory without links

Below a directory without links a path of plain names goes down name by name
and ends at the place that its names spell. Whether it gets there depends on
what lies on the way. On a disk that is a tree, what is there can be reached.

Main results:

* `locate_below` — where a path below such a directory leads;
* `entryAt_back` — a file seen later at a place that nothing was written to was
  there before;
* `exists_back` — and what is missing later was missing before.
-/

namespace Stencil.Disk

/-- There is no link at a place or below it. -/
def NoLinksBelow (d : Disk) (top : Place) : Prop :=
  ∀ q target, top <:+ q → d.look q ≠ some (.link target)

/-- What is no link and no directory is a file or nothing. -/
theorem NoLinksBelow.isLeaf {d : Disk} {top q : Place} (h : NoLinksBelow d top) (hq : top <:+ q)
    (hdirectory : ∀ m, d.look q ≠ some (.directory m)) : IsLeaf (d.look q) := by
  cases hlook : d.look q with
  | none => trivial
  | some e =>
    cases e with
    | file bytes mode => trivial
    | directory mode => exact (hdirectory mode hlook).elim
    | link target => exact (h q target hq hlook).elim

theorem NoLinksBelow.grown {d d' : Disk} {top : Place} {S : Place → Prop}
    (h : NoLinksBelow d top) (hgrown : Grown S d d') : NoLinksBelow d' top :=
  fun q target hq hlink => h q target hq (hgrown.link_iff.mp hlink)

theorem noLinksBelow_of_entries {d : Disk} {top : Place}
    (h : ∀ p ∈ d.entries, p.2.isFile = true ∨ p.2.isDirectory = true) : NoLinksBelow d top := by
  intro q target _ hlink
  by_cases hq : q = []
  · simp [hq] at hlink
  · have hentry := h _ (mem_entries_of_look hq hlink)
    simp [Entry.isFile, Entry.isDirectory] at hentry

/-- Goes down from a directory, name by name. -/
def descend (d : Disk) : Place → List String → Except Errno Place
  | q, [] => .ok q
  | q, name :: rest =>
    if nameLimit < name.utf8ByteSize then .error .nameTooLong
    else
      match d.look (name :: q) with
      | some (.directory _) => descend d (name :: q) rest
      | some _ => if rest = [] then .ok (name :: q) else .error .notDirectory
      | none => if rest = [] then .ok (name :: q) else .error .noEntry

section Descend

variable {d d' : Disk} {S : Place → Prop} {top q p : Place} {names : List String} {mode : Nat}

/-- **Without links a walk goes down.** -/
theorem walk_eq_descend {arrival : Arrival} {links : Nat} (hlinks : NoLinksBelow d top)
    (harrival : arrival ≠ .making) (hq : top <:+ q) (hdir : d.look q = some (.directory mode))
    (hnames : ∀ x ∈ names, IsName x) : walk d arrival links q names = descend d q names := by
  induction names generalizing q mode with
  | nil => rw [walk_nil, descend]
  | cons name rest ih =>
    have hname : IsName name := hnames name (by simp)
    have hbelow : top <:+ name :: q := hq.trans (List.suffix_cons name q)
    rw [descend]
    split
    · rename_i hlong
      exact walk_tooLong hdir hname.ne_up (not_or.mpr ⟨hname.ne_dot, hname.ne_slash⟩) harrival hlong
    · rename_i hfits
      have hpass : Passable arrival name rest := hname.passable (Nat.not_lt.mp hfits) harrival rest
      -- a directory is entered, and a file or nothing is where both stop
      cases hlook : d.look (name :: q) with
      | none =>
        rw [walk_leaf hdir hpass (by rw [hlook]; trivial), if_pos hlook]
      | some e =>
        cases e with
        | directory mode' =>
          rw [walk_into hdir hpass hlook]
          exact ih hbelow hlook fun x hx => hnames x (by simp [hx])
        | file bytes mode' =>
          rw [walk_leaf hdir hpass (by rw [hlook]; trivial)]
          simp only [hlook, reduceCtorEq, if_false]
        | link target => exact (hlinks _ _ hbelow hlook).elim

/-- One name down: it fits, and the way ends there or goes on in a directory. -/
theorem descend_cons_ok {name : String} {rest : List String}
    (h : descend d q (name :: rest) = .ok p) :
    name.utf8ByteSize ≤ nameLimit ∧
      (descend d (name :: q) rest = .ok p ∨ rest = [] ∧ p = name :: q) := by
  rw [descend] at h
  split at h
  · simp at h
  · rename_i hfits
    refine ⟨Nat.not_lt.mp hfits, ?_⟩
    split at h
    · exact .inl h
    -- a file, or nothing, is where a way ends
    all_goals
      split at h
      · rename_i hrest
        exact .inr ⟨hrest, (Except.ok.inj h).symm⟩
      · simp at h

/-- The names spell the place. -/
theorem place_of_descend (h : descend d q names = .ok p) : p = names.reverse ++ q := by
  induction names generalizing q with
  | nil => exact (Except.ok.inj h).symm
  | cons name rest ih =>
    rcases (descend_cons_ok h).2 with h | ⟨rfl, rfl⟩
    · rw [ih h, List.reverse_cons, List.append_assoc]
      rfl
    · rfl

theorem fits_of_descend (h : descend d q names = .ok p) :
    ∀ x ∈ names, x.utf8ByteSize ≤ nameLimit := by
  induction names generalizing q with
  | nil => simp
  | cons name rest ih =>
    obtain ⟨hfits, hrest⟩ := descend_cons_ok h
    intro x hx
    rcases List.mem_cons.mp hx with rfl | hx
    · exact hfits
    · rcases hrest with h | ⟨rfl, -⟩
      · exact ih h x hx
      · simp at hx

/-- Everything around what is there is a directory. -/
theorem IsTree.directory_above (h : IsTree d) {front : List String} (hfront : front ≠ [])
    (hlook : (d.look (front ++ q)).isSome) : ∃ mode, d.look q = some (.directory mode) := by
  induction front with
  | nil => exact absurd rfl hfront
  | cons name front ih =>
    obtain ⟨mode, hmode⟩ := h name (front ++ q) hlook
    -- the place above is a directory, so something is there
    by_cases hnil : front = []
    · subst hnil
      exact ⟨mode, hmode⟩
    · exact ih hnil (by rw [hmode]; rfl)

/-- **What is there can be reached.** -/
theorem descend_of_isSome (htree : IsTree d) (hfits : ∀ x ∈ names, x.utf8ByteSize ≤ nameLimit)
    (h : (d.look (names.reverse ++ q)).isSome) : descend d q names = .ok (names.reverse ++ q) := by
  induction names generalizing q with
  | nil => rfl
  | cons name rest ih =>
    rw [List.reverse_cons, List.append_assoc] at h ⊢
    have hshort : ¬ nameLimit < name.utf8ByteSize := Nat.not_lt.mpr (hfits name (by simp))
    rw [descend, if_neg hshort]
    by_cases hrest : rest = []
    · subst hrest
      cases hlook : d.look (name :: q) with
      | none => rfl
      | some e => cases e <;> rfl
    · -- what is there lies in a directory, so the way goes on
      obtain ⟨mode, hmode⟩ := htree.directory_above (by simpa using hrest) h
      have hdown := ih (fun x hx => hfits x (by simp [hx])) h
      simp only [List.singleton_append] at hmode hdown
      simp only [hmode]
      exact hdown

end Descend

/-! ## Paths below a directory -/

/-- A path leads to a directory without links below it, and names lead on from
there. -/
structure Below (d : Disk) (base : Path) (top : Place) (names : List String) : Prop where
  base : d.locate .beyond base = .ok top
  directory : ∃ mode, d.look top = some (.directory mode)
  noLinks : NoLinksBelow d top
  plain : ∀ x ∈ names, IsName x
  nonempty : names ≠ []

/-- The path of names below another path. -/
def pathBelow (base : Path) (names : List String) : Path :=
  ⟨base.anchor, base.parts ++ names⟩

theorem parent_pathBelow (base : Path) (names : List String) (last : String) :
    (pathBelow base (names ++ [last])).parent = pathBelow base names := by
  rw [Path.parent, pathBelow, ← List.append_assoc, List.dropLast_concat]
  rfl

namespace Below

variable {d d' : Disk} {S : Place → Prop} {base : Path} {top p : Place} {names : List String}

/-- **Where a path below a directory leads.** -/
theorem locate_below (h : Below d base top names) {arrival : Arrival}
    (harrival : arrival ≠ .making) :
    d.locate arrival (pathBelow base names) =
      if pathLimit ≤ (pathBelow base names).text.utf8ByteSize then .error .nameTooLong
      else descend d top names := by
  obtain ⟨mode, hdir⟩ := h.directory
  obtain ⟨-, hwalk⟩ := locate_eq_ok_iff.mp h.base
  rw [locate]
  split
  · rfl
  · exact hwalk.append h.nonempty harrival fun links =>
      walk_eq_descend h.noLinks harrival (List.suffix_refl top) hdir h.plain

theorem locate_eq_ok (h : Below d base top names) {arrival : Arrival}
    (harrival : arrival ≠ .making) :
    d.locate arrival (pathBelow base names) = .ok p ↔
      (pathBelow base names).text.utf8ByteSize < pathLimit ∧ descend d top names = .ok p := by
  rw [h.locate_below harrival]
  split
  · rename_i hlong
    simp [Nat.not_lt.mpr hlong]
  · rename_i hshort
    simp [Nat.not_le.mp hshort]

theorem place_eq (h : Below d base top names) {arrival : Arrival} (harrival : arrival ≠ .making)
    (hp : d.locate arrival (pathBelow base names) = .ok p) : p = names.reverse ++ top :=
  place_of_descend ((h.locate_eq_ok harrival).mp hp).2

/-- All this is so on a disk that has grown. -/
theorem grown (h : Below d base top names) (hgrown : Grown S d d') : Below d' base top names := by
  obtain ⟨mode, hdir⟩ := h.directory
  exact ⟨locate_kept hgrown.kept h.base, ⟨mode, hgrown.directory hdir⟩,
    h.noLinks.grown hgrown, h.plain, h.nonempty⟩

/-- **A file seen later was there before**, if nothing was written to its place. -/
theorem entryAt_back (h : Below d base top names) (htree : IsTree d) (hgrown : Grown S d d')
    (hplace : ¬ S (names.reverse ++ top)) {bytes : List UInt8} {mode : Nat}
    (hfile : d'.entryAt (pathBelow base names) = .ok (.file bytes mode)) :
    d.entryAt (pathBelow base names) = .ok (.file bytes mode) := by
  obtain ⟨p, hp, hlook'⟩ := entryAt_eq_ok_iff.mp hfile
  obtain ⟨hshort, hdescend⟩ := ((h.grown hgrown).locate_eq_ok (by simp)).mp hp
  obtain rfl := place_of_descend hdescend
  have hlook : d.look (names.reverse ++ top) = some (.file bytes mode) :=
    hgrown.file_back hplace hlook'
  have hdown := descend_of_isSome htree (fits_of_descend hdescend) (by rw [hlook]; rfl)
  exact entryAt_eq_ok_iff.mpr
    ⟨_, (h.locate_eq_ok (by simp)).mpr ⟨hshort, hdown⟩, hlook⟩

/-- **What is missing later was missing before.** -/
theorem exists_back (h : Below d base top names) (hgrown : Grown S d d')
    (hplace : ¬ S (names.reverse ++ top))
    (hmissing : d'.exists? (pathBelow base names) = .ok false) :
    d.exists? (pathBelow base names) = .ok false := by
  refine exists_kept_back hgrown.kept (fun q hq hsome => ?_) hmissing
  obtain rfl := h.place_eq (by simp) hq
  obtain ⟨e, he⟩ := Option.isSome_iff_exists.mp hsome
  rw [hgrown.look_eq_some hplace he]
  rfl

/-- The last name of a path leads somewhere, if it fits. -/
private theorem descend_single (d : Disk) (q : Place) (name : String) :
    descend d q [name] = if nameLimit < name.utf8ByteSize then .error .nameTooLong
      else .ok (name :: q) := by
  rw [descend]
  split
  · rfl
  · cases d.look (name :: q) with
    | none => rfl
    | some e => cases e <;> rfl

/-- **Whether there is a file in a directory** does not change, if nothing is
written to its place. -/
theorem isFile_grown {directory name : String} (h : Below d base top [directory, name])
    {mode : Nat} (hdirectory : d.look (directory :: top) = some (.directory mode))
    (hgrown : Grown S d d') (hplace : ¬ S (name :: directory :: top)) :
    d'.isFile? (pathBelow base [directory, name]) =
      d.isFile? (pathBelow base [directory, name]) := by
  -- the way leads through the directory on both disks
  have hlocate : d'.locate .beyond (pathBelow base [directory, name]) =
      d.locate .beyond (pathBelow base [directory, name]) := by
    rw [h.locate_below (by simp), (h.grown hgrown).locate_below (by simp)]
    have hdescend : ∀ d' : Disk, d'.look (directory :: top) = some (.directory mode) →
        descend d' top [directory, name] = if nameLimit < directory.utf8ByteSize then
          .error .nameTooLong else descend d' (directory :: top) [name] := by
      intro d' hlook
      rw [descend, hlook]
    rw [hdescend d hdirectory, hdescend d' (hgrown.directory hdirectory), descend_single,
      descend_single]
  rw [isFile?, isFile?, probe, probe, entryAt, entryAt, hlocate]
  cases hp : d.locate .beyond (pathBelow base [directory, name]) with
  | error code => rfl
  | ok p =>
    obtain rfl : p = name :: directory :: top := h.place_eq (by simp) hp
    -- where nothing was there may be a directory, and that is no file
    rcases hgrown.outside _ hplace with heq | ⟨hnone, m, hm⟩
    · simp only [heq]
    · simp only [hnone, hm]
      split <;> rfl

end Below

end Stencil.Disk
