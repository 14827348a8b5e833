import Stencil.Proofs.Disk.Plain
import Stencil.Proofs.Module.Write
import Stencil.Proofs.Refused

/-!
# Stencil — directories that are made

To make a directory is to make those around it first, as far as they are
missing. The first of them is made where nothing was, and the others are made
in it. So if a path led nowhere, there was nothing at the place of the new
directory or below it, unless the path turns back with a `..` on the way.

Main results:

* `ensureDirectories_ok` — what making a directory comes to;
* `nothing_below` — the place of a new directory was free.
-/

namespace Stencil.Disk

/-! ## Names behind a missing directory -/

/-- Where nothing is, a last link is not met. -/
theorem locate_beyond_of_none {d : Disk} {path : Path} {t : Place}
    (ht : d.locate .atLink path = .ok t) (hlink : ∀ target, d.look t ≠ some (.link target)) :
    d.locate .beyond path = .ok t := by
  obtain ⟨hlimit, hwalk⟩ := locate_eq_ok_iff.mp ht
  exact locate_eq_ok_iff.mpr ⟨hlimit, hwalk.beyond hlink⟩

/-- Below a place with nothing there is nothing. -/
theorem IsTree.look_eq_none {d : Disk} (h : IsTree d) {t q : Place} (hnone : d.look t = none)
    (hq : t <:+ q) : d.look q = none := by
  obtain ⟨front, rfl⟩ := hq
  by_cases hfront : front = []
  · rwa [hfront]
  · by_contra hlook
    obtain ⟨mode, hmode⟩ := h.directory_above hfront (Option.isSome_iff_ne_none.mpr hlook)
    rw [hnone] at hmode
    simp at hmode

theorem exists_eq_true_iff {d : Disk} {path : Path} :
    d.exists? path = .ok true ↔ path.hasNul = false ∧ ∃ e, d.entryAt path = .ok e := by
  rw [exists?, probe]
  cases path.hasNul with
  | true => simp [Except.map]
  | false =>
    cases d.entryAt path with
    | error code => cases code <;> simp [Except.map]
    | ok e => simp [Except.map]

theorem modeAt_eq_ok_iff {d : Disk} {path : Path} {mode : Nat} :
    d.modeAt path = .ok mode ↔
      path.hasNul = false ∧ ∃ e, d.entryAt path = .ok e ∧ e.mode = mode := by
  rw [modeAt]
  cases path.hasNul with
  | true => simp
  | false => cases d.entryAt path <;> simp

/-- No path leads on from where there is nothing. -/
theorem not_exists_behind {d : Disk} {anchor : Anchor} {outer : List String} {t : Place}
    (ht : d.locate .beyond ⟨anchor, outer⟩ = .ok t) (hnone : d.look t = none)
    (rest : List String) : d.exists? ⟨anchor, outer ++ rest⟩ ≠ .ok true := by
  intro hthere
  obtain ⟨-, e, hentry⟩ := exists_eq_true_iff.mp hthere
  obtain ⟨p, hp, hlook⟩ := entryAt_eq_ok_iff.mp hentry
  by_cases hrest : rest = []
  · rw [hrest, List.append_nil, ht] at hp
    rw [← Except.ok.inj hp, hnone] at hlook
    simp at hlook
  · obtain ⟨-, hwalk⟩ := locate_eq_ok_iff.mp ht
    obtain ⟨-, hwalk'⟩ := locate_eq_ok_iff.mp hp
    exact hwalk.not_append (by rw [hnone]; trivial) hrest (by simp) hwalk'

/-! ## Names in a directory -/

theorem Path.IsNormal.parent {path : Path} (h : path.IsNormal) : path.parent.IsNormal :=
  fun x hx => h x (List.dropLast_subset _ hx)

theorem Path.IsNormal.child {path : Path} {name : String} (h : path.IsNormal)
    (hname : IsName name) : (path.child name).IsNormal := by
  intro x hx
  rcases List.mem_append.mp hx with hx | hx
  · exact h x hx
  · rw [List.mem_singleton.mp hx]
    exact ⟨hname.ne_dot, hname.ne_slash⟩

/-- A normal path that ends with a name ends with one that a file can have. -/
theorem EndsInName.of_isNormal {path : Path} (hnormal : path.IsNormal)
    (hends : path.endsInName = true) : EndsInName path := by
  obtain ⟨hup, hparts⟩ := parts_eq hends
  have hdots := hnormal path.name (by rw [hparts]; simp)
  exact ⟨⟨hup, hdots.1, hdots.2⟩, hparts⟩

section Child

variable {d : Disk} {base : Path} {name : String}

/-- What leads to a name in a directory leads to the directory. -/
theorem exists_of_child (hname : IsName name) (h : d.exists? (base.child name) = .ok true) :
    d.exists? base = .ok true := by
  obtain ⟨hnul, e, hentry⟩ := exists_eq_true_iff.mp h
  obtain ⟨p, hp, -⟩ := entryAt_eq_ok_iff.mp hentry
  obtain ⟨hlimit, hwalk⟩ := locate_eq_ok_iff.mp hp
  obtain ⟨p', hwalk', -⟩ := hwalk.exists_atLink
  obtain ⟨m, hparent⟩ :=
    (endsInName_child hname).entryAt_parent (locate_eq_ok_iff.mpr ⟨hlimit, hwalk'⟩)
  rw [parent_child] at hparent
  exact exists_of_entryAt (Path.hasNul_eq_false_iff.mpr fun x hx =>
    Path.hasNul_eq_false_iff.mp hnul x (List.mem_append_left _ hx)) hparent

end Child

/-! ## Paths that turn back -/

/-- Every `..` of a path stands behind names that lead somewhere. -/
def Grounded (d : Disk) (p : Path) : Prop :=
  ∀ outer rest, p.parts = outer ++ ".." :: rest → d.exists? ⟨p.anchor, outer⟩ = .ok true

/-- A path without its last name turns back nowhere else. -/
theorem Grounded.parent {d : Disk} {p : Path} (h : d.Grounded p) (hname : EndsInName p) :
    d.Grounded p.parent := by
  intro outer rest hparts
  refine h outer (rest ++ [p.name]) ?_
  rw [hname.parts, show p.parts.dropLast = outer ++ ".." :: rest from hparts]
  simp

/-- A path turns back nowhere else if a name follows it. -/
theorem Grounded.child {d : Disk} {base : Path} {name : String} (h : d.Grounded base)
    (hname : IsName name) : d.Grounded (base.child name) := by
  intro outer rest hparts
  rcases List.eq_nil_or_concat rest with rfl | ⟨rest, last, rfl⟩
  · exact absurd (List.append_inj_right' hparts rfl) (by simp [hname.ne_up])
  · refine h outer rest ?_
    rw [List.concat_eq_append, ← List.cons_append, ← List.append_assoc] at hparts
    exact (List.append_inj' hparts rfl).1

theorem grounded_of_notMem {p : Path} (h : ".." ∉ p.parts) (d : Disk) : d.Grounded p :=
  fun _ _ hparts => (h (by simp [hparts])).elim

/-! ## Directories on the way of a path -/

/-- The second disk has directories where a path or the beginning of one leads and
nothing was before; nothing else has changed. -/
structure Paved (path : Path) (d d' : Disk) : Prop where
  here : d'.here = d.here
  look : ∀ q, d'.look q = d.look q ∨
    d.look q = none ∧ d'.look q = some (.directory newDirectoryMode) ∧
      ∃ outer inner, path.parts = outer ++ inner ∧ d'.locate .atLink ⟨path.anchor, outer⟩ = .ok q

namespace Paved

variable {path : Path} {d d' d'' : Disk}

theorem refl (path : Path) (d : Disk) : Paved path d d :=
  ⟨rfl, fun _ => .inl rfl⟩

theorem grown (h : Paved path d d') : Grown (fun _ => False) d d' :=
  ⟨h.here, fun q _ => (h.look q).imp_right fun ⟨hnone, hdir, _⟩ => ⟨hnone, _, hdir⟩,
    fun _ hq => hq.elim⟩

theorem trans (h : Paved path d d') (h' : Paved path d' d'') : Paved path d d'' := by
  refine ⟨h'.here.trans h.here, fun q => ?_⟩
  rcases h'.look q with heq' | ⟨hnone', hdir', outer, inner, hparts, hq⟩
  · rw [heq']
    -- the path still leads to the directories that were made first
    exact (h.look q).imp_right fun ⟨hnone, hdir, outer, inner, hparts, hq⟩ =>
      ⟨hnone, hdir, outer, inner, hparts, locate_kept h'.grown.kept hq⟩
  · rcases h.look q with heq | ⟨-, hdir, -⟩
    · exact .inr ⟨heq ▸ hnone', hdir', outer, inner, hparts, hq⟩
    · rw [hdir] at hnone'
      simp at hnone'

/-- The way of a path is that of a longer one. -/
theorem longer {anchor : Anchor} {names rest : List String} (h : Paved ⟨anchor, names⟩ d d') :
    Paved ⟨anchor, names ++ rest⟩ d d' :=
  ⟨h.here, fun q => (h.look q).imp_right fun ⟨hnone, hdir, outer, inner, hparts, hq⟩ =>
    ⟨hnone, hdir, outer, inner ++ rest, by rw [← List.append_assoc, ← hparts], hq⟩⟩

/-- What is there stays there. -/
theorem entryAt (h : Paved path d d') {path' : Path} {e : Entry}
    (he : d.entryAt path' = .ok e) : d'.entryAt path' = .ok e := by
  obtain ⟨q, hq, hlook⟩ := entryAt_eq_ok_iff.mp he
  refine entryAt_eq_ok_iff.mpr ⟨q, locate_kept h.grown.kept hq, ?_⟩
  rcases h.look q with heq | ⟨hnone, -⟩
  · rw [heq, hlook]
  · rw [hlook] at hnone
    simp at hnone

theorem of_makeDirectory (h : d.makeDirectory path = .ok d') : Paved path d d' := by
  obtain ⟨-, place, hplace, hnone, rfl⟩ := makeDirectory_eq_ok_iff.mp h
  have hne : place ≠ [] := by
    rintro rfl
    simp at hnone
  refine ⟨rfl, fun q => ?_⟩
  by_cases hq : q = place
  · subst hq
    exact .inr ⟨hnone, look_put_self d _ hne, path.parts, [], (List.append_nil _).symm,
      locate_kept (grown_makeDirectory h).kept hplace⟩
  · exact .inl (look_put_of_ne d _ hq)

/-- A disk with a new file taken away again. -/
theorem of_look (h : Paved path d d') (hhere : d''.here = d'.here)
    (hlook : ∀ q, d''.look q = d'.look q) : Paved path d d'' := by
  have hkept : Kept d' d'' :=
    ⟨hhere, fun q mode hq => by rw [hlook, hq], fun q target => by rw [hlook]⟩
  refine ⟨hhere.trans h.here, fun q => ?_⟩
  rw [hlook q]
  exact (h.look q).imp_right fun ⟨hnone, hdir, outer, inner, hparts, hq⟩ =>
    ⟨hnone, hdir, outer, inner, hparts, locate_kept hkept hq⟩

end Paved

end Stencil.Disk

namespace Stencil.Module

open Stencil.Disk

variable {path : Path} {w w' : World}

/-- **What making one directory does**: it is made, or nothing changes, and that is
a success only if there is a directory already. -/
theorem ensureDirectory_mayEnd {result : Except Failure Unit}
    (h : (ensureDirectory path).MayEnd w result w') :
    (∃ d, w.disk.makeDirectory path = .ok d ∧ w' = { w with disk := d } ∧ result = .ok ()) ∨
      w' = w ∧ (result = .ok () → w.disk.isDirectory? path = .ok true) := by
  rw [ensureDirectory] at h
  obtain ⟨made, w₁, hmade, hrest⟩ := Work.mayEnd_bind_outcome.mp h
  cases made with
  | ok _ =>
    obtain ⟨rfl, rfl⟩ := Work.mayEnd_pure.mp hrest
    have hrun := (Work.Refusable.makeDirectory path).of_ok hmade
    obtain ⟨d, hd, rfl⟩ := Work.runIn_makeDirectory_eq_ok hrun
    exact .inl ⟨d, hd, rfl, rfl⟩
  | error failure =>
    obtain rfl := (Work.Refusable.makeDirectory path).of_error hmade
    refine .inr ?_
    simp only at hrest
    -- a refusal is forgiven if a directory is there
    split at hrest
    · rcases Work.mayEnd_bind.mp hrest with ⟨isThere, w₂, hlook, hrest⟩ | ⟨failure, hlook, rfl⟩
      · have hrun := (Work.Refusable.isDirectory? path).of_ok hlook
        rw [Work.runIn_isDirectory?] at hrun
        obtain ⟨hanswer, rfl⟩ := Prod.mk.inj hrun
        cases isThere with
        | true =>
          obtain ⟨rfl, rfl⟩ := Work.mayEnd_pure.mp hrest
          exact ⟨rfl, fun _ => Work.mapError_eq_ok.mp hanswer⟩
        | false =>
          obtain ⟨rfl, rfl⟩ := Work.mayEnd_throw.mp hrest
          exact ⟨rfl, by simp⟩
      · exact ⟨(Work.Refusable.isDirectory? path).of_error hlook, by simp⟩
    · obtain ⟨rfl, rfl⟩ := Work.mayEnd_throw.mp hrest
      exact ⟨rfl, by simp⟩

/-- A directory is there once it has been made. -/
theorem isDirectory_makeDirectory {path : Path} {w : World} {d : Disk}
    (h : w.disk.makeDirectory path = .ok d) : d.isDirectory? path = .ok true := by
  have hkept := (grown_makeDirectory h).kept
  obtain ⟨hnul, t, ht, hnone, rfl⟩ := makeDirectory_eq_ok_iff.mp h
  have hne : t ≠ [] := by
    rintro rfl
    simp at hnone
  have hlook := look_put_self w.disk (.directory newDirectoryMode) hne
  have ht' := locate_beyond_of_none (locate_kept hkept ht) (by simp [hlook])
  exact isDirectory_eq_true_iff.mpr ⟨hnul, _, entryAt_eq_ok_iff.mpr ⟨t, ht', hlook⟩⟩

/-! ## A directory and those around it -/

/-- The first directory that is made for a path. -/
def Begins (d : Disk) (path : Path) : Prop :=
  ∃ outer inner d', path.parts = outer ++ inner ∧ d.makeDirectory ⟨path.anchor, outer⟩ = .ok d'

/-- None is made for a path that leads somewhere. -/
theorem not_begins {d : Disk} (hthere : d.exists? path = .ok true) : ¬ Begins d path := by
  rintro ⟨outer, inner, d', hparts, hmade⟩
  obtain ⟨-, t, ht, hnone, -⟩ := makeDirectory_eq_ok_iff.mp hmade
  refine not_exists_behind (locate_beyond_of_none ht (by simp [hnone])) hnone inner ?_
  rwa [← hparts]

/-- What there is once directories have been made for a path, successfully or not. -/
structure Ensured (path : Path) (result : Except Failure Unit) (w w' : World) : Prop where
  paved : Paved path w.disk w'.disk
  world : w' = { w with disk := w'.disk }
  there : result = .ok () → w'.disk.isDirectory? path = .ok true
  begun : result = .ok () → w' = w ∨ Begins w.disk path

namespace Ensured

variable {result : Except Failure Unit}

theorem unchanged (path : Path) (failure : Failure) (w : World) :
    Ensured path (.error failure) w w :=
  ⟨.refl _ _, rfl, by simp, by simp⟩

theorem of_one (h : (ensureDirectory path).MayEnd w result w') : Ensured path result w w' := by
  rcases ensureDirectory_mayEnd h with ⟨d, hmade, rfl, rfl⟩ | ⟨rfl, hthere⟩
  · exact ⟨.of_makeDirectory hmade, rfl, fun _ => isDirectory_makeDirectory hmade,
      fun _ => .inr ⟨_, [], d, (List.append_nil _).symm, hmade⟩⟩
  · exact ⟨.refl _ _, rfl, hthere, fun _ => .inl rfl⟩

/-- Those around a directory come first. -/
theorem inside {anchor : Anchor} {names : List String} {name : String} {w₁ : World}
    (houter : Ensured ⟨anchor, names⟩ (.ok ()) w w₁)
    (h : Ensured ⟨anchor, names ++ [name]⟩ result w₁ w') :
    Ensured ⟨anchor, names ++ [name]⟩ result w w' := by
  refine ⟨houter.paved.longer.trans h.paved, ?_, h.there, fun hok => ?_⟩
  · rw [h.world, houter.world]
  · rcases houter.begun rfl with rfl | ⟨front, inner, d, hparts, hmade⟩
    · exact h.begun hok
    · exact .inr ⟨front, inner ++ [name], d, by rw [← List.append_assoc, ← hparts], hmade⟩

/-- **A directory with those around it**, whatever is refused. -/
theorem of_names {anchor : Anchor} {names : List String}
    (h : (ensureNames anchor names).MayEnd w result w') :
    Ensured ⟨anchor, names.reverse⟩ result w w' := by
  -- on the names, the last one first
  induction names generalizing result w' with
  | nil => exact .of_one h
  | cons name outer ih =>
    rw [ensureNames] at h
    obtain ⟨first, w₁, hfirst, hrest⟩ := Work.mayEnd_bind_outcome.mp h
    cases first with
    | ok _ =>
      obtain ⟨rfl, rfl⟩ := Work.mayEnd_pure.mp hrest
      exact .of_one hfirst
    | error failure =>
      -- nothing has been made, so those around it come first
      obtain rfl : w₁ = w := by
        rcases ensureDirectory_mayEnd hfirst with ⟨_, _, _, hok⟩ | ⟨hw, -⟩
        · simp at hok
        · exact hw
      simp only [List.reverse_cons] at hfirst hrest ⊢
      split at hrest
      · rcases Work.mayEnd_bind.mp hrest with ⟨_, w₂, houter, hsecond⟩ | ⟨failure', houter, rfl⟩
        · exact (ih houter).inside (.of_one hsecond)
        · exact ⟨(ih houter).paved.longer, (ih houter).world, by simp, by simp⟩
      · obtain ⟨rfl, rfl⟩ := Work.mayEnd_throw.mp hrest
        exact .unchanged _ _ _

end Ensured

/-- **Making directories**, whatever is refused. -/
theorem ensureDirectories_mayEnd {result : Except Failure Unit}
    (h : (ensureDirectories path).MayEnd w result w') : Ensured path result w w' := by
  have hnames := Ensured.of_names h
  rwa [List.reverse_reverse] at hnames

/-- If they are made, the directory is there, and none had to be made if it was. -/
theorem ensureDirectories_ok (h : (ensureDirectories path).runIn w = (.ok (), w')) :
    w'.disk.isDirectory? path = .ok true ∧ (w' = w ∨ Begins w.disk path) := by
  have hensured := ensureDirectories_mayEnd (Work.MayEnd.of_runIn h)
  exact ⟨hensured.there rfl, hensured.begun rfl⟩

/-- A write goes on from the directory that it has made. -/
theorem atomicWrite_from_directory {content : String}
    (h : (atomicWrite path content).runIn w = (.ok (), w')) :
    ∃ w₁, (ensureDirectories path.parent).runIn w = (.ok (), w₁) ∧
      (atomicWrite path content).runIn w₁ = (.ok (), w') := by
  rw [atomicWrite] at h
  obtain ⟨_, w₁, hdirectories, h⟩ := Work.runIn_bind_ok h
  -- the directory is there now, so to make it once more changes nothing
  obtain ⟨hnul, m, hentry⟩ := isDirectory_eq_true_iff.mp (ensureDirectories_ok hdirectories).1
  refine ⟨w₁, hdirectories, ?_⟩
  rw [atomicWrite, Work.runIn_bind_of_ok (ensureDirectories_runIn hnul hentry)]
  exact h

/-! ## What was there before -/

section Before

variable {d d' : Disk} {base : Path} {name : String}

/-- A directory is begun with one around it, or with its parent there already. -/
private theorem exists_outer (hname : IsName name) (hmissing : d.exists? base = .ok false)
    (hbegins : Begins d (base.child name)) :
    ∃ outer inner t, base.parts = outer ++ inner ∧ d.locate .atLink ⟨base.anchor, outer⟩ = .ok t ∧
      d.look t = none := by
  obtain ⟨outer, inner, made, hparts, hmade⟩ := hbegins
  obtain ⟨hnul, t, ht, hnone, -⟩ := makeDirectory_eq_ok_iff.mp hmade
  rcases List.eq_nil_or_concat inner with rfl | ⟨inner, last, rfl⟩
  · -- only the last one is made, so its parent is there
    have hpath : (⟨base.anchor, outer⟩ : Path) = base.child name := by
      rw [List.append_nil] at hparts
      rw [← hparts]
      rfl
    rw [show (base.child name).anchor = base.anchor from rfl, hpath] at ht hnul
    obtain ⟨r, m, -, hr, hlook⟩ := (endsInName_child hname).locate_parent ht
    rw [parent_child] at hr
    have hnulBase : base.hasNul = false := Path.hasNul_eq_false_iff.mpr fun x hx =>
      Path.hasNul_eq_false_iff.mp hnul x (List.mem_append_left _ hx)
    have hthere := exists_of_entryAt hnulBase (entryAt_eq_ok_iff.mpr ⟨r, hr, hlook⟩)
    rw [hmissing] at hthere
    simp at hthere
  · rw [List.concat_eq_append, ← List.append_assoc] at hparts
    exact ⟨outer, inner, t, (List.append_singleton_inj.mp hparts).1, ht, hnone⟩

variable {outer inner : List String} {t : Place}

/-- The names behind the first new directory go down. -/
private theorem isName_behind (hnormal : base.IsNormal)
    (hgrounded : d.Grounded base) (hparts : base.parts = outer ++ inner)
    (ht : d.locate .beyond ⟨base.anchor, outer⟩ = .ok t) (hnone : d.look t = none) :
    ∀ x ∈ inner, IsName x := by
  intro x hx
  have hdots := hnormal x (by simp [hparts, hx])
  refine ⟨?_, hdots.1, hdots.2⟩
  rintro rfl
  -- names that lead nowhere would stand before the `..`
  obtain ⟨front, back, rfl⟩ := List.append_of_mem hx
  rw [← List.append_assoc] at hparts
  exact not_exists_behind ht hnone front (hgrounded _ _ hparts)

/-- The first new directory and the names behind it. -/
private theorem below_new (htree : IsTree d) (hgrown : Grown (fun _ => False) d d')
    (ht : d.locate .atLink ⟨base.anchor, outer⟩ = .ok t) (hnone : d.look t = none)
    (hplain : ∀ x ∈ inner, IsName x) (hne : inner ≠ []) {s : Place}
    (hs : d'.locate .beyond ⟨base.anchor, outer ++ inner⟩ = .ok s) :
    Below d' ⟨base.anchor, outer⟩ t inner := by
  have hnolink : ∀ q target, t <:+ q → d'.look q ≠ some (.link target) := by
    intro q target hq hlink
    have hlink' := hgrown.link_iff.mp hlink
    rw [htree.look_eq_none hnone hq] at hlink'
    simp at hlink'
  have ht' : d'.locate .beyond ⟨base.anchor, outer⟩ = .ok t :=
    locate_beyond_of_none (locate_kept hgrown.kept ht) (hnolink t · (List.suffix_refl t))
  refine ⟨ht', ?_, hnolink, hplain, hne⟩
  rcases hgrown.outside t id with heq | ⟨-, hdirectory⟩
  · -- the path leads on from there, so something has been made
    obtain ⟨-, hwalk⟩ := locate_eq_ok_iff.mp ht'
    obtain ⟨-, hwalk'⟩ := locate_eq_ok_iff.mp hs
    exact (hwalk.not_append (by rw [heq, hnone]; trivial) hne (by simp) hwalk').elim
  · exact hdirectory

/-- There was nothing at the place of a directory that was begun for its path. -/
theorem look_eq_none_of_begins_self (htree : IsTree d) (hgrown : Grown (fun _ => False) d d')
    (hnormal : base.IsNormal) (hgrounded : d.Grounded base) (hbegins : Begins d base)
    (hthere : d'.isDirectory? base = .ok true) :
    ∃ top mode, d'.locate .beyond base = .ok top ∧ d'.look top = some (.directory mode) ∧
      d.look top = none := by
  obtain ⟨outer, inner, made, hparts, hmade⟩ := hbegins
  obtain ⟨-, t, ht, hnone, -⟩ := makeDirectory_eq_ok_iff.mp hmade
  obtain ⟨-, mode, hentry⟩ := isDirectory_eq_true_iff.mp hthere
  obtain ⟨top, htop, hlook⟩ := entryAt_eq_ok_iff.mp hentry
  refine ⟨top, mode, htop, hlook, htree.look_eq_none hnone ?_⟩
  have hbase : base = ⟨base.anchor, outer ++ inner⟩ := by rw [← hparts]
  by_cases hinner : inner = []
  · -- the directory itself was the first that was made
    have hnolink : ∀ target, d'.look t ≠ some (.link target) := fun target hlink => by
      rw [hgrown.link_iff, hnone] at hlink
      simp at hlink
    have ht' := locate_beyond_of_none (locate_kept hgrown.kept ht) hnolink
    rw [hbase, hinner, List.append_nil, ht'] at htop
    obtain rfl := Except.ok.inj htop
    exact List.suffix_refl t
  · have hplain := isName_behind hnormal hgrounded hparts
      (locate_beyond_of_none ht (by simp [hnone])) hnone
    rw [hbase] at htop
    have hbelow := below_new htree hgrown ht hnone hplain hinner htop
    rw [hbelow.place_eq (by simp) htop]
    exact List.suffix_append _ _

/-- **The place of a new directory was free**, if its path led nowhere. -/
theorem look_eq_none_of_begins (htree : IsTree d) (hgrown : Grown (fun _ => False) d d')
    (hname : IsName name) (hnormal : base.IsNormal) (hgrounded : d.Grounded base)
    (hmissing : d.exists? base = .ok false) (hbegins : Begins d (base.child name))
    (hthere : d'.isDirectory? (base.child name) = .ok true) :
    ∃ top mode, d'.locate .beyond base = .ok top ∧ d'.look top = some (.directory mode) ∧
      d.look top = none := by
  obtain ⟨outer, inner, t, hparts, ht, hnone⟩ := exists_outer hname hmissing hbegins
  have hinner := isName_behind hnormal hgrounded hparts
    (locate_beyond_of_none ht (by simp [hnone])) hnone
  have hplain : ∀ x ∈ inner ++ [name], IsName x :=
    List.forall_mem_append.mpr ⟨hinner, by simpa using hname⟩
  obtain ⟨-, mode, hentry⟩ := isDirectory_eq_true_iff.mp hthere
  obtain ⟨s, hs, -⟩ := entryAt_eq_ok_iff.mp hentry
  have hchild : base.child name = pathBelow ⟨base.anchor, outer⟩ (inner ++ [name]) := by
    rw [Path.child, pathBelow, hparts, List.append_assoc]
  rw [hchild] at hs
  have hbelow := below_new htree hgrown ht hnone hplain (by simp) hs
  -- what leads to the new directory leads through its parent
  have hsLink : d'.locate .atLink (pathBelow ⟨base.anchor, outer⟩ (inner ++ [name])) = .ok s :=
    (hbelow.locate_eq_ok (by simp)).mpr ((hbelow.locate_eq_ok (by simp)).mp hs)
  rw [← hchild] at hsLink
  obtain ⟨r, m, hr, hbase, hlook⟩ := (endsInName_child hname).locate_parent hsLink
  rw [parent_child] at hbase
  refine ⟨r, m, hbase, hlook, htree.look_eq_none hnone ?_⟩
  rw [hbelow.place_eq (by simp) hs, List.reverse_append] at hr
  obtain ⟨-, rfl⟩ := List.cons.inj hr
  exact List.suffix_append _ _

end Before

end Stencil.Module
