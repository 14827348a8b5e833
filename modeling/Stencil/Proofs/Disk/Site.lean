import Stencil.Proofs.Disk.Plain
import Stencil.Proofs.Disk.Temporary

/-!
# Stencil — a directory as a part of the disk

What the paths below a directory lead to depends on what lies at the directory
and below it, as long as the directories around it are there. `Site` says that
this is so for the directory that a path leads to, and `Down` is about a path
that goes down from it, whether it is written from the same start or in full,
like that of a temporary file. Two disks with the same at a site and below it
cannot be told apart by such paths.

Main results:

* `Site.of_plain`, `Site.kept` — where there is a site, and that it stays;
* `Down.locate_eq`, `Down.entryAt_eq` — where a path leads that goes down;
* `Site.temporaryPath_eq` — the temporary path, and that it goes down.
-/

namespace Stencil.Disk

/-! ## Sites -/

/-- A path leads to a directory without links below it, and the path written in
full leads there too. -/
structure Site (d : Disk) (base : Path) (top : Place) : Prop where
  noNul : base.hasNul = false
  leads : ∀ arrival, arrival ≠ .making → d.locate arrival base = .ok top
  around : ∀ q, q <:+ top → ∃ mode, d.look q = some (.directory mode)
  noLinks : NoLinksBelow d top
  named : ∀ name ∈ top, IsEntryName name
  spelled : d.spelled base = top

namespace Site

variable {d d' : Disk} {base : Path} {top : Place}

theorem directory (h : Site d base top) : ∃ mode, d.look top = some (.directory mode) :=
  h.around top (List.suffix_refl top)

theorem entryAt (h : Site d base top) : ∃ mode, d.entryAt base = .ok (.directory mode) := by
  obtain ⟨mode, hmode⟩ := h.directory
  exact ⟨mode, entryAt_eq_ok_iff.mpr ⟨top, h.leads .beyond (by simp), hmode⟩⟩

/-- **Every directory on a plain disk** is a site of the paths that lead to it. -/
theorem of_plain (hd : IsPlain d) (hnormal : base.IsNormal)
    (hthere : d.isDirectory? base = .ok true) : Site d base (d.spelled base) := by
  obtain ⟨hnul, mode, hentry⟩ := isDirectory_eq_true_iff.mp hthere
  obtain ⟨top, htop, hlook⟩ := entryAt_eq_ok_iff.mp hentry
  obtain ⟨hlimit, hwalk⟩ := locate_eq_ok_iff.mp htop
  obtain rfl : top = d.spelled base := hwalk.spelled hd.noLinks hnormal
  refine ⟨hnul, fun arrival harrival => ?_, fun q hq => ?_, fun q target _ => hd.noLinks q target,
    hd.entryName_of_mem (by rw [hlook]; rfl), rfl⟩
  · cases arrival with
    | beyond => exact htop
    | making => exact absurd rfl harrival
    | atLink =>
      -- there is no link at which the walk could stop
      obtain ⟨p, hp, rfl | ⟨target, links, hlink, -⟩⟩ := hwalk.exists_atLink
      · exact locate_eq_ok_iff.mpr ⟨hlimit, hp⟩
      · exact (hd.noLinks _ _ hlink).elim
  · exact hd.directory_around (by rw [hlook]; rfl) ⟨mode, hlook⟩ hq

/-- A site stays one while directories and links are kept. -/
theorem kept (h : Site d base top) (hkept : Kept d d') : Site d' base top := by
  refine ⟨h.noNul, fun arrival harrival => locate_kept hkept (h.leads arrival harrival),
    fun q hq => ?_,
    fun q target hq hlink => h.noLinks q target hq ((hkept.link_iff q target).mp hlink),
    h.named, ?_⟩
  · obtain ⟨mode, hmode⟩ := h.around q hq
    exact ⟨mode, hkept.directory q mode hmode⟩
  · have hstart : d'.start base = d.start base := by rw [start, start, hkept.here]
    rw [← h.spelled, Disk.spelled, Disk.spelled, hstart]

end Site

/-- The same lies at a place and below it, on disks with the same working
directory. -/
structure SameBelow (top : Place) (d d' : Disk) : Prop where
  here : d'.here = d.here
  look : ∀ q, top <:+ q → d'.look q = d.look q

theorem SameBelow.symm {top : Place} {d d' : Disk} (h : SameBelow top d d') :
    SameBelow top d' d :=
  ⟨h.here.symm, fun q hq => (h.look q hq).symm⟩

/-! ## Paths that go down -/

/-- A path leads down from a site by these names, on every disk that has the
site. -/
structure Down (base : Path) (top : Place) (names : List String) (p : Path) : Prop where
  plain : ∀ x ∈ names, IsName x
  locate : ∀ d, Site d base top → ∀ arrival, arrival ≠ .making →
    d.locate arrival p =
      if pathLimit ≤ p.text.utf8ByteSize then .error .nameTooLong else descend d top names

private theorem descend_congr {d d' : Disk} {top : Place} (hsame : SameBelow top d d') {q : Place}
    (hq : top <:+ q) (names : List String) : descend d' q names = descend d q names := by
  -- on the names; the place stays below the site
  induction names generalizing q with
  | nil => rfl
  | cons name rest ih =>
    have hnext : top <:+ name :: q := hq.trans (List.suffix_cons name q)
    rw [descend, descend, hsame.look _ hnext, ih hnext]

namespace Down

variable {d d' : Disk} {base p : Path} {top place : Place} {names : List String}
  {arrival : Arrival}

/-- The path of the site itself. -/
theorem self : Down base top [] base := by
  refine ⟨by simp, fun d hd arrival harrival => ?_⟩
  have hbase := hd.leads arrival harrival
  have hlimit := (locate_eq_ok_iff.mp hbase).1
  rw [hbase, if_neg (Nat.not_le.mpr hlimit), descend]

/-- The path goes on by plain names. -/
theorem below (hplain : ∀ x ∈ names, IsName x) (hne : names ≠ []) :
    Down base top names (pathBelow base names) := by
  refine ⟨hplain, fun d hd arrival harrival => ?_⟩
  have hbelow : Below d base top names :=
    ⟨hd.leads .beyond (by simp), hd.directory, hd.noLinks, hplain, hne⟩
  exact hbelow.locate_below harrival

/-- The names of a place lead to it from the root. -/
private theorem walks_down {links : Nat} {q : Place} {names : List String}
    (hdir : ∀ s, s <:+ names.reverse ++ q → q <:+ s → ∃ mode, d.look s = some (.directory mode))
    (hnames : ∀ x ∈ names, IsEntryName x) :
    Walks d .beyond links q names (names.reverse ++ q) := by
  -- on the names; what is passed is a directory between the start and the end
  induction names generalizing q with
  | nil => exact .stop links q
  | cons name rest ih =>
    rw [List.reverse_cons, List.append_assoc] at hdir ⊢
    obtain ⟨mode, hmode⟩ := hdir q ⟨rest.reverse ++ [name], by simp⟩ (List.suffix_refl q)
    obtain ⟨mode', hmode'⟩ := hdir (name :: q) ⟨rest.reverse, rfl⟩ (List.suffix_cons name q)
    have hname := hnames name (by simp)
    refine .into hmode (hname.isName.passable hname.fits (by simp) rest) hmode' ?_
    exact ih (fun s hs hq => hdir s hs ((List.suffix_cons name q).trans hq)) fun x hx =>
      hnames x (by simp [hx])

/-- The same path written in full. -/
theorem rooted {anchor : Anchor} (hanchor : anchor ≠ .here) (hplain : ∀ x ∈ names, IsName x)
    (hne : names ≠ []) : Down base top names ⟨anchor, top.reverse ++ names⟩ := by
  refine ⟨hplain, fun d hd arrival harrival => ?_⟩
  have hstart : d.start ⟨anchor, top.reverse ++ names⟩ = [] := by
    cases anchor with
    | here => exact absurd rfl hanchor
    | _ => rfl
  have hwalk : Walks d .beyond linkLimit [] top.reverse top := by
    have hdown : Walks d .beyond linkLimit [] top.reverse (top.reverse.reverse ++ []) :=
      walks_down (fun s hs _ => hd.around s (by simpa using hs)) fun x hx =>
        hd.named x (by simpa using hx)
    rwa [List.reverse_reverse, List.append_nil] at hdown
  obtain ⟨mode, hdir⟩ := hd.directory
  rw [Disk.locate, hstart]
  split
  · rfl
  · exact hwalk.append hne harrival fun links =>
      walk_eq_descend hd.noLinks harrival (List.suffix_refl top) hdir hplain

theorem place_eq (h : Down base top names p) (hd : Site d base top) (harrival : arrival ≠ .making)
    (hp : d.locate arrival p = .ok place) : place = names.reverse ++ top := by
  rw [h.locate d hd arrival harrival] at hp
  split at hp
  · simp at hp
  · exact place_of_descend hp

/-- It leads to a place below the site. -/
theorem suffix (h : Down base top names p) (hd : Site d base top) (harrival : arrival ≠ .making)
    (hp : d.locate arrival p = .ok place) : top <:+ place := by
  rw [h.place_eq hd harrival hp]
  exact List.suffix_append _ _

/-- **Disks with the same below the site** lead it to the same place. -/
theorem locate_eq (h : Down base top names p) (hd : Site d base top) (hd' : Site d' base top)
    (hsame : SameBelow top d d') (harrival : arrival ≠ .making) :
    d'.locate arrival p = d.locate arrival p := by
  rw [h.locate d hd arrival harrival, h.locate d' hd' arrival harrival,
    descend_congr hsame (List.suffix_refl top)]

/-- It leads to the same entry. -/
theorem entryAt_eq (h : Down base top names p) (hd : Site d base top) (hd' : Site d' base top)
    (hsame : SameBelow top d d') : d'.entryAt p = d.entryAt p := by
  rw [entryAt, entryAt, h.locate_eq hd hd' hsame (by simp)]
  cases hp : d.locate .beyond p with
  | error code => rfl
  | ok place => simp only [hsame.look place (h.suffix hd (by simp) hp)]

/-- The same is found at its end. -/
theorem taken_iff (h : Down base top names p) (hd : Site d base top) (hd' : Site d' base top)
    (hsame : SameBelow top d d') : Taken d' p ↔ Taken d p := by
  rw [Taken, Taken, h.locate_eq hd hd' hsame (by simp)]
  constructor
  · rintro ⟨place, hp, hsome⟩
    exact ⟨place, hp, by rwa [hsame.look place (h.suffix hd (by simp) hp)] at hsome⟩
  · rintro ⟨place, hp, hsome⟩
    exact ⟨place, hp, by rwa [hsame.look place (h.suffix hd (by simp) hp)]⟩

end Down

/-! ## Temporary files -/

namespace Site

variable {d d' : Disk} {base : Path} {top : Place} {names : List String} {last : String}

/-- A path below the site, written in full. -/
theorem absolute_below (h : Site d base top) (hplain : ∀ x ∈ names, IsName x) :
    ∃ anchor, anchor ≠ .here ∧
      d.absolute (pathBelow base names) = ⟨anchor, top.reverse ++ names⟩ := by
  have hfold : ∀ q, foldNames q base.parts = top →
      (foldNames q (base.parts ++ names)).reverse = top.reverse ++ names := by
    intro q hq
    rw [foldNames_append, hq, foldNames_plain _ fun x hx => (hplain x hx).ne_up,
      List.reverse_append, List.reverse_reverse]
  have hspelled := h.spelled
  rw [Disk.spelled, start] at hspelled
  obtain ⟨anchor, parts⟩ := base
  -- a path from here is written from the root
  cases anchor with
  | here => exact ⟨.root, by simp, congrArg (Path.mk .root) (hfold d.here hspelled)⟩
  | root => exact ⟨.root, by simp, congrArg (Path.mk .root) (hfold [] hspelled)⟩
  | doubleRoot =>
    exact ⟨.doubleRoot, by simp, congrArg (Path.mk .doubleRoot) (hfold [] hspelled)⟩

/-- The candidates for a temporary file beside a file below the site. -/
theorem candidate_eq (h : Site d base top) (hplain : ∀ x ∈ names, IsName x) (last : String)
    (n : Nat) : ∃ anchor, anchor ≠ .here ∧
      d.candidate (pathBelow base (names ++ [last])) n =
        ⟨anchor, top.reverse ++ (names ++ [temporaryName last n])⟩ := by
  have hname : (pathBelow base (names ++ [last])).name = last := by
    rw [Path.name, pathBelow, ← List.append_assoc, List.getLast?_concat]
    rfl
  obtain ⟨anchor, hanchor, habsolute⟩ := h.absolute_below hplain
  refine ⟨anchor, hanchor, ?_⟩
  rw [candidate, parent_pathBelow, hname, habsolute, Path.child, List.append_assoc]

/-- They go down like the file itself. -/
theorem candidate_down (h : Site d base top) (hplain : ∀ x ∈ names, IsName x) (last : String)
    (n : Nat) : Down base top (names ++ [temporaryName last n])
      (d.candidate (pathBelow base (names ++ [last])) n) := by
  obtain ⟨anchor, hanchor, hcandidate⟩ := h.candidate_eq hplain last n
  rw [hcandidate]
  refine Down.rooted hanchor (fun x hx => ?_) (by simp)
  rcases List.mem_append.mp hx with hx | hx
  · exact hplain x hx
  · rw [List.mem_singleton.mp hx]
    exact isName_temporaryName last n

/-- **The temporary path goes down**, and is the same on a disk with the same
below the site. -/
theorem temporaryPath_eq (h : Site d base top) (h' : Site d' base top)
    (hsame : SameBelow top d d') (hplain : ∀ x ∈ names, IsName x) (last : String) :
    d'.temporaryPath (pathBelow base (names ++ [last])) =
        d.temporaryPath (pathBelow base (names ++ [last])) ∧
      ∃ n, Down base top (names ++ [temporaryName last n])
        (d.temporaryPath (pathBelow base (names ++ [last]))) := by
  obtain ⟨n, hn, hfree, hbefore⟩ := temporaryPath_spec d (pathBelow base (names ++ [last]))
  have hcandidate : ∀ k, d'.candidate (pathBelow base (names ++ [last])) k =
      d.candidate (pathBelow base (names ++ [last])) k := by
    intro k
    rw [candidate, candidate, absolute, absolute, hsame.here]
  have htaken : ∀ k, Taken d' (d'.candidate (pathBelow base (names ++ [last])) k) ↔
      Taken d (d.candidate (pathBelow base (names ++ [last])) k) := fun k => by
    rw [hcandidate k]
    exact (h.candidate_down hplain last k).taken_iff h h' hsame
  refine ⟨?_, n, ?_⟩
  · rw [hn, ← hcandidate n]
    exact Disk.temporaryPath_eq (mt (htaken n).mp hfree) fun m hm => (htaken m).mpr (hbefore m hm)
  · rw [hn]
    exact h.candidate_down hplain last n

end Site

end Stencil.Disk
