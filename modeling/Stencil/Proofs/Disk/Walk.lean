import Stencil.Proofs.Disk.Look

/-!
# Stencil — where walks lead

`Walks` says once what a walk that goes through can do at each name, so that
nothing later takes the walk itself apart. A walk asks for directories and
links only, and therefore leads to the same place as long as these are kept.
Below a directory without links it has nothing to follow: it passes name after
name and ends at the last one.

Main results:

* `walk_eq_ok_iff` — a walk leads somewhere exactly if `Walks` does;
* `Walks.kept`, `locate_kept` — a path leads to the same place on a disk that
  has kept its directories and links;
* `locate_tooLong_kept`, `exists_kept_back` — a name that was too long still is, and
  what is missing was missing before;
* `Walks.concat` — the place of a path is its last name in the place of its
  directory;
* `Walks.append` — a longer walk goes on from where a shorter one has come to.
-/

namespace Stencil.Disk

/-! ## Successful walks -/

/-- What a walk asks of a name that it is to pass, with the names after it. -/
structure Passable (arrival : Arrival) (name : String) (rest : List String) : Prop where
  ne_up : name ≠ ".."
  ne_dot : name ≠ dotName
  ne_slash : name ≠ slashName
  makes : ¬ (arrival = .making ∧ rest = [slashName])
  fits : name.utf8ByteSize ≤ nameLimit

/-- A walk that leads somewhere and follows at most so many links. -/
inductive Walks (d : Disk) (arrival : Arrival) :
    (links : Nat) → Place → List String → Place → Prop
  | stop (links : Nat) (q : Place) : Walks d arrival links q [] q
  | up {links : Nat} {q p : Place} {rest : List String} {mode : Nat}
      (hdir : d.look q = some (.directory mode)) (hrest : Walks d arrival links q.tail rest p) :
      Walks d arrival links q (".." :: rest) p
  | stay {links : Nat} {q p : Place} {name : String} {rest : List String} {mode : Nat}
      (hdir : d.look q = some (.directory mode)) (hname : name = dotName ∨ name = slashName)
      (hrest : Walks d arrival links q rest p) : Walks d arrival links q (name :: rest) p
  | into {links : Nat} {q p : Place} {name : String} {rest : List String} {mode mode' : Nat}
      (hdir : d.look q = some (.directory mode)) (hname : Passable arrival name rest)
      (hnext : d.look (name :: q) = some (.directory mode'))
      (hrest : Walks d arrival links (name :: q) rest p) :
      Walks d arrival links q (name :: rest) p
  | leaf {links : Nat} {q : Place} {name : String} {mode : Nat}
      (hdir : d.look q = some (.directory mode)) (hname : Passable arrival name [])
      (hleaf : IsLeaf (d.look (name :: q))) : Walks d arrival links q [name] (name :: q)
  | atLink {links : Nat} {q : Place} {name target : String} {mode : Nat}
      (hdir : d.look q = some (.directory mode)) (hname : Passable arrival name [])
      (hlink : d.look (name :: q) = some (.link target)) (harrival : arrival = .atLink) :
      Walks d arrival links q [name] (name :: q)
  | follow {links : Nat} {q p : Place} {name target : String} {rest : List String} {mode : Nat}
      (hdir : d.look q = some (.directory mode)) (hname : Passable arrival name rest)
      (hlink : d.look (name :: q) = some (.link target))
      (hend : ¬ (rest = [] ∧ arrival = .atLink))
      (hrest : Walks d arrival links (if (Path.ofText target).isAbsolute then [] else q)
        (linkNames target ++ rest) p) :
      Walks d arrival (links + 1) q (name :: rest) p

/-- A walk through names, given what following a link leads to. -/
private theorem walks_of_walkNames {d : Disk} {arrival : Arrival} {links : Nat}
    {follow : Place → List String → Except Errno Place}
    (hfollow : ∀ {q : Place} {name target : String} {rest : List String} {p : Place} {mode : Nat},
      d.look q = some (.directory mode) → Passable arrival name rest →
      d.look (name :: q) = some (.link target) → ¬ (rest = [] ∧ arrival = .atLink) →
      follow (if (Path.ofText target).isAbsolute then [] else q) (linkNames target ++ rest) =
        .ok p →
      Walks d arrival links q (name :: rest) p)
    {q p : Place} {names : List String} (h : walkNames d arrival follow q names = .ok p) :
    Walks d arrival links q names p := by
  -- the branches of one step are the constructors, in the order in which the walk tries
  -- them
  induction names generalizing q with
  | nil =>
    obtain rfl := Except.ok.inj h
    exact .stop links q
  | cons name rest ih =>
    rw [walkNames] at h
    split at h
    · simp at h
    · rename_i mode hdir
      split at h
      · rename_i hup
        exact hup ▸ .up hdir (ih h)
      split at h
      · rename_i hstay
        exact .stay hdir hstay (ih h)
      -- from here on the name has to be passed
      rename_i hup hstay
      split at h
      · simp at h
      split at h
      · simp at h
      rename_i hmakes hfits
      have hname : Passable arrival name rest :=
        ⟨hup, fun hdot => hstay (.inl hdot), fun hslash => hstay (.inr hslash), hmakes, by omega⟩
      split at h
      · -- nothing lies there: only a last name may say so
        rename_i hnone
        split at h
        · rename_i hrest
          subst hrest
          obtain rfl := Except.ok.inj h
          exact .leaf hdir hname (by rw [hnone]; trivial)
        · simp at h
      · rename_i target hlink
        split at h
        · rename_i hend
          obtain ⟨rfl, rfl⟩ := hend
          obtain rfl := Except.ok.inj h
          exact .atLink hdir hname hlink rfl
        · rename_i hend
          exact hfollow hdir hname hlink hend h
      · rename_i e hnolink hsome
        cases e with
        | directory mode' => exact .into hdir hname hsome (ih h)
        | link target => exact (hnolink target rfl).elim
        | file bytes mode' =>
          -- a file ends the walk, so there is no name left
          cases rest with
          | nil =>
            obtain rfl := Except.ok.inj h
            exact .leaf hdir hname (by rw [hsome]; trivial)
          | cons next rest =>
            rw [walkNames, hsome] at h
            simp at h
    · simp at h

/-! ## Single steps -/

section Steps

variable {d : Disk} {arrival : Arrival} {links : Nat} {q : Place} {name : String}
  {rest : List String} {mode : Nat}

private theorem walkNames_passable {follow : Place → List String → Except Errno Place}
    (hdir : d.look q = some (.directory mode)) (hname : Passable arrival name rest) :
    walkNames d arrival follow q (name :: rest) =
      match d.look (name :: q) with
      | none => if rest = [] then .ok (name :: q) else .error .noEntry
      | some (.link target) =>
        if rest = [] ∧ arrival = .atLink then .ok (name :: q)
        else
          follow (if (Path.ofText target).isAbsolute then [] else q) (linkNames target ++ rest)
      | some _ => walkNames d arrival follow (name :: q) rest := by
  rw [walkNames, hdir]
  simp only
  have hshort : ¬ name.utf8ByteSize > nameLimit := by
    have := hname.fits
    omega
  rw [if_neg hname.ne_up, if_neg (by simp [hname.ne_dot, hname.ne_slash]), if_neg hname.makes]
  exact if_neg hshort

/-- Every walk passes names, whatever it may follow. -/
private theorem exists_follow (d : Disk) (arrival : Arrival) (links : Nat) :
    ∃ follow, walk d arrival links = walkNames d arrival follow := by
  cases links <;> exact ⟨_, rfl⟩

theorem walk_nil : walk d arrival links q [] = .ok q := by
  cases links <;> rfl

theorem walk_up (hdir : d.look q = some (.directory mode)) :
    walk d arrival links q (".." :: rest) = walk d arrival links q.tail rest := by
  obtain ⟨follow, hfollow⟩ := exists_follow d arrival links
  rw [hfollow, walkNames, hdir]
  rfl

theorem walk_stay (hdir : d.look q = some (.directory mode))
    (hname : name = dotName ∨ name = slashName) :
    walk d arrival links q (name :: rest) = walk d arrival links q rest := by
  obtain ⟨follow, hfollow⟩ := exists_follow d arrival links
  rw [hfollow, walkNames, hdir]
  simp only
  rw [if_neg (by rcases hname with rfl | rfl <;> decide), if_pos hname]

theorem walk_into (hdir : d.look q = some (.directory mode)) (hname : Passable arrival name rest)
    {mode' : Nat} (hnext : d.look (name :: q) = some (.directory mode')) :
    walk d arrival links q (name :: rest) = walk d arrival links (name :: q) rest := by
  obtain ⟨follow, hfollow⟩ := exists_follow d arrival links
  rw [hfollow, walkNames_passable hdir hname, hnext]

theorem walk_tooLong (hdir : d.look q = some (.directory mode)) (hup : name ≠ "..")
    (hstay : ¬ (name = dotName ∨ name = slashName)) (harrival : arrival ≠ .making)
    (hlong : nameLimit < name.utf8ByteSize) :
    walk d arrival links q (name :: rest) = .error .nameTooLong := by
  obtain ⟨follow, hfollow⟩ := exists_follow d arrival links
  rw [hfollow, walkNames, hdir]
  simp only
  -- the length is looked at before what lies there
  rw [if_neg hup, if_neg hstay, if_neg (fun h => harrival h.1), if_pos hlong]

theorem walk_leaf (hdir : d.look q = some (.directory mode)) (hname : Passable arrival name rest)
    (hleaf : IsLeaf (d.look (name :: q))) :
    walk d arrival links q (name :: rest) =
      if rest = [] then .ok (name :: q)
      else .error (if d.look (name :: q) = none then .noEntry else .notDirectory) := by
  obtain ⟨follow, hfollow⟩ := exists_follow d arrival links
  rw [hfollow, walkNames_passable hdir hname]
  split
  · rename_i hnone
    rw [if_pos hnone]
  · rename_i target hlink
    rw [hlink] at hleaf
    exact hleaf.elim
  · rename_i e hnolink hsome
    -- a file is passed like a directory, and the step after it fails
    cases rest with
    | nil => rfl
    | cons next rest =>
      rw [hsome] at hleaf
      cases e with
      | file bytes mode' => simp [walkNames, hsome]
      | directory mode' => exact hleaf.elim
      | link target => exact hleaf.elim

/-- No name lies in a file or in nothing. -/
theorem walk_from_leaf (hleaf : IsLeaf (d.look q)) (hrest : rest ≠ []) :
    walk d arrival links q rest =
      .error (if d.look q = none then .noEntry else .notDirectory) := by
  obtain ⟨follow, hfollow⟩ := exists_follow d arrival links
  obtain ⟨name, rest, rfl⟩ := List.exists_cons_of_ne_nil hrest
  -- the first name is enough: it is looked for in the leaf
  rw [hfollow, walkNames]
  split
  · rename_i hnone
    rw [if_pos hnone]
  · rename_i mode hdir
    rw [hdir] at hleaf
    exact hleaf.elim
  · rename_i e hnodir hsome
    rw [hsome]
    rfl

theorem walk_atLink (hdir : d.look q = some (.directory mode))
    (hname : Passable .atLink name []) {target : String}
    (hlink : d.look (name :: q) = some (.link target)) :
    walk d .atLink links q [name] = .ok (name :: q) := by
  obtain ⟨follow, hfollow⟩ := exists_follow d .atLink links
  rw [hfollow, walkNames_passable hdir hname, hlink]
  simp

theorem walk_follow (hdir : d.look q = some (.directory mode))
    (hname : Passable arrival name rest) {target : String}
    (hlink : d.look (name :: q) = some (.link target))
    (hend : ¬ (rest = [] ∧ arrival = .atLink)) :
    walk d arrival (links + 1) q (name :: rest) =
      walk d arrival links (if (Path.ofText target).isAbsolute then [] else q)
        (linkNames target ++ rest) := by
  rw [walk, walkNames_passable hdir hname, hlink]
  simp only
  rw [if_neg hend]

end Steps

theorem walks_of_walk {d : Disk} {arrival : Arrival} {links : Nat} {q p : Place}
    {names : List String} (h : walk d arrival links q names = .ok p) :
    Walks d arrival links q names p := by
  -- on the links that may still be followed; each step inside is one name
  induction links generalizing q p names with
  | zero => exact walks_of_walkNames (by simp) h
  | succ links ih =>
    exact walks_of_walkNames
      (fun hdir hname hlink hend hrest => .follow hdir hname hlink hend (ih hrest)) h

theorem Walks.walk_eq {d : Disk} {arrival : Arrival} {links : Nat} {q p : Place}
    {names : List String} (h : Walks d arrival links q names p) :
    walk d arrival links q names = .ok p := by
  induction h with
  | stop links q => exact walk_nil
  | up hdir _ ih => rw [walk_up hdir, ih]
  | stay hdir hname _ ih => rw [walk_stay hdir hname, ih]
  | into hdir hname hnext _ ih => rw [walk_into hdir hname hnext, ih]
  | leaf hdir hname hleaf => rw [walk_leaf hdir hname hleaf, if_pos rfl]
  | atLink hdir hname hlink harrival => subst harrival; exact walk_atLink hdir hname hlink
  | follow hdir hname hlink hend _ ih => rw [walk_follow hdir hname hlink hend, ih]

/-- **What a walk that leads somewhere does**, name by name. -/
theorem walk_eq_ok_iff {d : Disk} {arrival : Arrival} {links : Nat} {q p : Place}
    {names : List String} :
    walk d arrival links q names = .ok p ↔ Walks d arrival links q names p :=
  ⟨walks_of_walk, Walks.walk_eq⟩

/-- A path leads somewhere if it is short enough and its names do. -/
theorem locate_eq_ok_iff {d : Disk} {arrival : Arrival} {path : Path} {p : Place} :
    d.locate arrival path = .ok p ↔
      path.text.utf8ByteSize < pathLimit ∧
        Walks d arrival linkLimit (d.start path) path.parts p := by
  rw [locate]
  split
  · rename_i hlimit
    simp [Nat.not_lt.mpr hlimit]
  · rename_i hlimit
    simp [Nat.not_le.mp hlimit, walk_eq_ok_iff]

theorem entryAt_eq_ok_iff {d : Disk} {path : Path} {e : Entry} :
    d.entryAt path = .ok e ↔ ∃ p, d.locate .beyond path = .ok p ∧ d.look p = some e := by
  rw [entryAt]
  cases d.locate .beyond path with
  | error code => simp
  | ok p =>
    simp only [Except.ok.injEq, exists_eq_left']
    cases d.look p <;> simp

/-- Reading goes through exactly for files. -/
theorem read_eq_ok_iff {d : Disk} {path : Path} {bytes : List UInt8} :
    d.read path = .ok bytes ↔
      path.hasNul = false ∧ ∃ mode, d.entryAt path = .ok (.file bytes mode) := by
  rw [read]
  cases path.hasNul with
  | true => simp
  | false =>
    cases d.entryAt path with
    | error code => simp
    | ok e => cases e <;> simp

theorem exists_of_entryAt {d : Disk} {path : Path} {e : Entry} (hnul : path.hasNul = false)
    (h : d.entryAt path = .ok e) : d.exists? path = .ok true := by
  rw [exists?, probe, hnul, h]
  rfl

/-- A path leads to a file if the file can be read. -/
theorem isFile_eq_true_iff {d : Disk} {path : Path} :
    d.isFile? path = .ok true ↔ ∃ bytes, d.read path = .ok bytes := by
  rw [isFile?, probe, read]
  cases path.hasNul with
  | true => simp [Except.map]
  | false =>
    cases d.entryAt path with
    | error code => cases code <;> simp [Except.map]
    | ok e => cases e <;> simp [Except.map, Entry.isFile]

theorem isDirectory_eq_true_iff {d : Disk} {path : Path} :
    d.isDirectory? path = .ok true ↔
      path.hasNul = false ∧ ∃ mode, d.entryAt path = .ok (.directory mode) := by
  rw [isDirectory?, probe]
  cases path.hasNul with
  | true => simp [Except.map]
  | false =>
    cases d.entryAt path with
    | error code => cases code <;> simp [Except.map]
    | ok e => cases e <;> simp [Except.map, Entry.isDirectory]

/-! ## Walks on a disk that keeps its directories -/

/-- **A walk leads to the same place** on a disk that has kept its directories and
links. -/
theorem Walks.kept {d d' : Disk} {arrival : Arrival} {links : Nat} {q p : Place}
    {names : List String} (h : Walks d arrival links q names p) (hkept : Kept d d') :
    Walks d' arrival links q names p := by
  induction h with
  | stop links q => exact .stop links q
  | up hdir _ ih => exact .up (hkept.directory _ _ hdir) ih
  | stay hdir hname _ ih => exact .stay (hkept.directory _ _ hdir) hname ih
  | into hdir hname hnext _ ih =>
    exact .into (hkept.directory _ _ hdir) hname (hkept.directory _ _ hnext) ih
  | leaf hdir hname hleaf =>
    -- a directory may have come where the walk ends
    rcases hkept.leaf hleaf with hleaf | ⟨mode, hmode⟩
    · exact .leaf (hkept.directory _ _ hdir) hname hleaf
    · exact .into (hkept.directory _ _ hdir) hname hmode (.stop _ _)
  | atLink hdir hname hlink harrival =>
    exact .atLink (hkept.directory _ _ hdir) hname ((hkept.link_iff _ _).mpr hlink) harrival
  | follow hdir hname hlink hend _ ih =>
    exact .follow (hkept.directory _ _ hdir) hname ((hkept.link_iff _ _).mpr hlink) hend ih

/-- A path leads to the same place on a disk that has kept its directories and
links. -/
theorem locate_kept {d d' : Disk} (h : Kept d d') {arrival : Arrival} {path : Path} {p : Place}
    (hp : d.locate arrival path = .ok p) : d'.locate arrival path = .ok p := by
  have hstart : d'.start path = d.start path := by rw [start, start, h.here]
  obtain ⟨hlimit, hwalk⟩ := locate_eq_ok_iff.mp hp
  exact locate_eq_ok_iff.mpr ⟨hlimit, hstart ▸ hwalk.kept h⟩

/-- A directory is still one. -/
theorem isDirectory_kept {d d' : Disk} (h : Kept d d') {path : Path}
    (hthere : d.isDirectory? path = .ok true) : d'.isDirectory? path = .ok true := by
  obtain ⟨hnul, mode, hentry⟩ := isDirectory_eq_true_iff.mp hthere
  obtain ⟨p, hp, hlook⟩ := entryAt_eq_ok_iff.mp hentry
  exact isDirectory_eq_true_iff.mpr
    ⟨hnul, mode, entryAt_eq_ok_iff.mpr ⟨p, locate_kept h hp, h.directory p mode hlook⟩⟩

/-- Names of which one is too long, given that following links comes to the same. -/
private theorem walkNames_tooLong_kept {d d' : Disk} {arrival : Arrival}
    {follow follow' : Place → List String → Except Errno Place} (hkept : Kept d d')
    (hfollow : ∀ q names, follow q names = .error .nameTooLong →
      follow' q names = .error .nameTooLong) {q : Place} {names : List String}
    (h : walkNames d arrival follow q names = .error .nameTooLong) :
    walkNames d' arrival follow' q names = .error .nameTooLong := by
  induction names generalizing q with
  | nil => simp [walkNames] at h
  | cons name rest ih =>
    rw [walkNames] at h
    split at h
    · simp at h
    · rename_i mode hdir
      rw [walkNames, hkept.directory q mode hdir]
      simp only
      split at h
      · rename_i hup
        rw [if_pos hup]
        exact ih h
      split at h
      · rename_i hup hstay
        rw [if_neg hup, if_pos hstay]
        exact ih h
      split at h
      · simp at h
      rename_i hup hstay hmakes
      rw [if_neg hup, if_neg hstay, if_neg hmakes]
      split at h
      · rename_i hlong
        rw [if_pos hlong]
      rename_i hfits
      rw [if_neg hfits]
      -- a name that fits is passed, so what is too long comes after it
      split at h
      · split at h <;> simp at h
      · rename_i target hlink
        rw [(hkept.link_iff _ target).mpr hlink]
        simp only
        split at h
        · simp at h
        · rename_i hend
          rw [if_neg hend]
          exact hfollow _ _ h
      · rename_i e hnolink hsome
        cases e with
        | directory mode' =>
          rw [hkept.directory _ mode' hsome]
          exact ih h
        | link target => exact (hnolink target rfl).elim
        | file bytes mode' =>
          -- nothing comes after a file
          cases rest with
          | nil => simp [walkNames] at h
          | cons next rest => simp [walkNames, hsome] at h
    · simp at h

/-- **A path that is too long** still is on a disk that has kept its directories and
links. -/
theorem locate_tooLong_kept {d d' : Disk} (h : Kept d d') {arrival : Arrival} {path : Path}
    (hlong : d.locate arrival path = .error .nameTooLong) :
    d'.locate arrival path = .error .nameTooLong := by
  have hwalk : ∀ links q names, walk d arrival links q names = .error .nameTooLong →
      walk d' arrival links q names = .error .nameTooLong := by
    intro links
    -- on the links that may be followed
    induction links with
    | zero => exact fun q names => walkNames_tooLong_kept h (by simp)
    | succ links ih => exact fun q names => walkNames_tooLong_kept h ih
  have hstart : d'.start path = d.start path := by rw [start, start, h.here]
  rw [locate] at hlong ⊢
  split at hlong
  · rename_i hlimit
    rw [if_pos hlimit]
  · rename_i hlimit
    rw [if_neg hlimit, hstart]
    exact hwalk _ _ _ hlong

/-- **What is missing later was missing before**, if what the path led to is not gone. -/
theorem exists_kept_back {d d' : Disk} (h : Kept d d') {path : Path}
    (hplace : ∀ q, d.locate .beyond path = .ok q → (d.look q).isSome → (d'.look q).isSome)
    (hmissing : d'.exists? path = .ok false) : d.exists? path = .ok false := by
  rw [exists?, probe] at hmissing ⊢
  split
  · rfl
  · rename_i hnul
    rw [if_neg hnul] at hmissing
    -- a path that led somewhere leads there still; one that led nowhere was missing, unless
    -- a name was too long
    cases hlocate : d.locate .beyond path with
    | ok q =>
      rw [entryAt, locate_kept h hlocate] at hmissing
      rw [entryAt, hlocate]
      cases hlook : d.look q with
      | none =>
        simp only [hlook]
        rfl
      | some e =>
        obtain ⟨e', he'⟩ := Option.isSome_iff_exists.mp (hplace q hlocate (by rw [hlook]; rfl))
        simp [he', Except.map] at hmissing
    | error code =>
      have hlong : code ≠ .nameTooLong := by
        rintro rfl
        rw [entryAt, locate_tooLong_kept h hlocate] at hmissing
        simp [Except.map] at hmissing
      rw [entryAt, hlocate]
      cases code <;> first | rfl | exact absurd rfl hlong

/-! ## The last name -/

/-- A name for what lies in a directory, and for no directory on the way. -/
structure IsName (name : String) : Prop where
  ne_up : name ≠ ".."
  ne_dot : name ≠ dotName
  ne_slash : name ≠ slashName

theorem Passable.isName {arrival : Arrival} {name : String} {rest : List String}
    (h : Passable arrival name rest) : IsName name :=
  ⟨h.ne_up, h.ne_dot, h.ne_slash⟩

theorem IsName.passable {name : String} (h : IsName name) (hfits : name.utf8ByteSize ≤ nameLimit)
    {arrival : Arrival} (harrival : arrival ≠ .making) (rest : List String) :
    Passable arrival name rest :=
  ⟨h.ne_up, h.ne_dot, h.ne_slash, fun hm => harrival hm.1, hfits⟩

theorem Passable.beyond {arrival : Arrival} {name : String} {rest : List String}
    (h : Passable arrival name rest) (rest' : List String) : Passable .beyond name rest' :=
  h.isName.passable h.fits (by simp) rest'

/-- What is found at the end of a walk that does not follow a last link: what
the walk that follows it leads to, or a link that leads there. -/
def LeadsTo (d : Disk) (p' p : Place) : Prop :=
  p' = p ∨ ∃ target links, d.look p' = some (.link target) ∧
    Walks d .beyond links (if (Path.ofText target).isAbsolute then [] else p'.tail)
      (linkNames target) p

namespace Walks

variable {d : Disk} {links : Nat} {q p : Place} {names : List String}

/-- **The last name of a path** adds itself to the place of its directory. -/
theorem concat {x : String} (h : Walks d .atLink links q (names ++ [x]) p) (hx : IsName x) :
    ∃ r mode, p = x :: r ∧ Walks d .beyond links q names r ∧
      d.look r = some (.directory mode) ∧ x.utf8ByteSize ≤ nameLimit := by
  -- the names are split behind the first one, whether or not it is `x`
  generalize hall : names ++ [x] = all at h
  induction h generalizing names with
  | stop links q => simp at hall
  | up hdir _ ih =>
    rcases List.append_eq_cons_iff.mp hall with ⟨rfl, h⟩ | ⟨names, rfl, rfl⟩
    · exact (hx.ne_up (List.cons.inj h).1).elim
    · obtain ⟨r, mode, hp, hwalk, hr⟩ := ih rfl
      exact ⟨r, mode, hp, .up hdir hwalk, hr⟩
  | stay hdir hname _ ih =>
    rcases List.append_eq_cons_iff.mp hall with ⟨rfl, h⟩ | ⟨names, rfl, rfl⟩
    · obtain ⟨rfl, -⟩ := List.cons.inj h
      exact (hname.elim hx.ne_dot hx.ne_slash).elim
    · obtain ⟨r, mode, hp, hwalk, hr⟩ := ih rfl
      exact ⟨r, mode, hp, .stay hdir hname hwalk, hr⟩
  | @into links q p name rest mode mode' hdir hname hnext hrest ih =>
    rcases List.append_eq_cons_iff.mp hall with ⟨rfl, h⟩ | ⟨names, rfl, rfl⟩
    · obtain ⟨rfl, rfl⟩ := List.cons.inj h
      -- `x` is the last name, so the rest of the walk stops
      cases hrest
      exact ⟨q, mode, rfl, .stop links q, hdir, hname.fits⟩
    · obtain ⟨r, mode, hp, hwalk, hr⟩ := ih rfl
      exact ⟨r, mode, hp, .into hdir (hname.beyond _) hnext hwalk, hr⟩
  | @leaf links q name mode hdir hname hleaf =>
    rcases List.append_eq_cons_iff.mp hall with ⟨rfl, h⟩ | ⟨names, rfl, h⟩
    · obtain ⟨rfl, -⟩ := List.cons.inj h
      exact ⟨q, mode, rfl, .stop links q, hdir, hname.fits⟩
    · simp at h
  | @atLink links q name target mode hdir hname hlink =>
    rcases List.append_eq_cons_iff.mp hall with ⟨rfl, h⟩ | ⟨names, rfl, h⟩
    · obtain ⟨rfl, -⟩ := List.cons.inj h
      exact ⟨q, mode, rfl, .stop links q, hdir, hname.fits⟩
    · simp at h
  | follow hdir hname hlink hend _ ih =>
    rcases List.append_eq_cons_iff.mp hall with ⟨rfl, h⟩ | ⟨names, rfl, rfl⟩
    · -- a last link would not be followed
      exact (hend ⟨(List.cons.inj h).2.symm, rfl⟩).elim
    · obtain ⟨r, mode, hp, hwalk, hr⟩ := ih (List.append_assoc ..)
      exact ⟨r, mode, hp, .follow hdir (hname.beyond _) hlink (by simp) hwalk, hr⟩

/-- A path whose last name is a slash or a dot leads to a directory. -/
theorem directory_of_stay {arrival : Arrival} {x : String}
    (h : Walks d arrival links q (names ++ [x]) p) (hx : x = dotName ∨ x = slashName) :
    ∃ mode, d.look p = some (.directory mode) := by
  have hdots : x ≠ ".." := by rcases hx with rfl | rfl <;> decide
  have hpass : ∀ {rest}, ¬ Passable arrival x rest := fun hname =>
    hx.elim hname.ne_dot hname.ne_slash
  generalize hall : names ++ [x] = all at h
  induction h generalizing names with
  | stop links q => simp at hall
  | up hdir _ ih =>
    rcases List.append_eq_cons_iff.mp hall with ⟨rfl, h⟩ | ⟨names, rfl, rfl⟩
    · exact (hdots (List.cons.inj h).1).elim
    · exact ih rfl
  | stay hdir hname hrest ih =>
    rcases List.append_eq_cons_iff.mp hall with ⟨rfl, h⟩ | ⟨names, rfl, rfl⟩
    · obtain ⟨-, rfl⟩ := List.cons.inj h
      -- the walk stays where it is, in a directory
      cases hrest
      exact ⟨_, hdir⟩
    · exact ih rfl
  | into hdir hname hnext hrest ih =>
    rcases List.append_eq_cons_iff.mp hall with ⟨rfl, h⟩ | ⟨names, rfl, rfl⟩
    · obtain ⟨rfl, -⟩ := List.cons.inj h
      exact (hpass hname).elim
    · exact ih rfl
  | leaf hdir hname hleaf =>
    rcases List.append_eq_cons_iff.mp hall with ⟨rfl, h⟩ | ⟨names, rfl, h⟩
    · obtain ⟨rfl, -⟩ := List.cons.inj h
      exact (hpass hname).elim
    · simp at h
  | atLink hdir hname hlink =>
    rcases List.append_eq_cons_iff.mp hall with ⟨rfl, h⟩ | ⟨names, rfl, h⟩
    · obtain ⟨rfl, -⟩ := List.cons.inj h
      exact (hpass hname).elim
    · simp at h
  | follow hdir hname hlink hend _ ih =>
    rcases List.append_eq_cons_iff.mp hall with ⟨rfl, h⟩ | ⟨names, rfl, rfl⟩
    · obtain ⟨rfl, -⟩ := List.cons.inj h
      exact (hpass hname).elim
    · exact ih (List.append_assoc ..)

/-- A walk that ends at no link ends there too if it is to follow links. -/
theorem beyond (h : Walks d .atLink links q names p)
    (hp : ∀ target, d.look p ≠ some (.link target)) : Walks d .beyond links q names p := by
  induction h with
  | stop links q => exact .stop links q
  | up hdir _ ih => exact .up hdir (ih hp)
  | stay hdir hname _ ih => exact .stay hdir hname (ih hp)
  | into hdir hname hnext _ ih => exact .into hdir (hname.beyond _) hnext (ih hp)
  | leaf hdir hname hleaf => exact .leaf hdir (hname.beyond _) hleaf
  | atLink hdir hname hlink => exact (hp _ hlink).elim
  | follow hdir hname hlink _ _ ih =>
    exact .follow hdir (hname.beyond _) hlink (by simp) (ih hp)

/-- A walk that is not to follow a last link stops at that link. -/
theorem exists_atLink (h : Walks d .beyond links q names p) :
    ∃ p', Walks d .atLink links q names p' ∧ LeadsTo d p' p := by
  induction h with
  | stop links q => exact ⟨q, .stop links q, .inl rfl⟩
  | up hdir _ ih =>
    obtain ⟨p', hwalk, hp'⟩ := ih
    exact ⟨p', .up hdir hwalk, hp'⟩
  | stay hdir hname _ ih =>
    obtain ⟨p', hwalk, hp'⟩ := ih
    exact ⟨p', .stay hdir hname hwalk, hp'⟩
  | into hdir hname hnext _ ih =>
    obtain ⟨p', hwalk, hp'⟩ := ih
    exact ⟨p', .into hdir (hname.isName.passable hname.fits (by simp) _) hnext hwalk, hp'⟩
  | leaf hdir hname hleaf =>
    exact ⟨_, .leaf hdir (hname.isName.passable hname.fits (by simp) _) hleaf, .inl rfl⟩
  | atLink hdir hname hlink harrival => simp at harrival
  | @follow links q p name target rest mode hdir hname hlink hend hrest ih =>
    have hpass : Passable .atLink name rest := hname.isName.passable hname.fits (by simp) _
    -- only a link under the last name makes a difference
    by_cases hnil : rest = []
    · subst hnil
      rw [List.append_nil] at hrest
      exact ⟨name :: q, .atLink hdir hpass hlink rfl, .inr ⟨target, links, hlink, hrest⟩⟩
    · obtain ⟨p', hwalk, hp'⟩ := ih
      exact ⟨p', .follow hdir hpass hlink (by simp [hnil]) hwalk, hp'⟩

/-- A walk may follow more links than it has to. -/
theorem more {arrival : Arrival} (h : Walks d arrival links q names p) (k : Nat) :
    Walks d arrival (links + k) q names p := by
  induction h with
  | stop links q => exact .stop _ q
  | up hdir _ ih => exact .up hdir ih
  | stay hdir hname _ ih => exact .stay hdir hname ih
  | into hdir hname hnext _ ih => exact .into hdir hname hnext ih
  | leaf hdir hname hleaf => exact .leaf hdir hname hleaf
  | atLink hdir hname hlink harrival => exact .atLink hdir hname hlink harrival
  | follow hdir hname hlink hend _ ih =>
    rw [Nat.add_right_comm]
    exact .follow hdir hname hlink hend ih

/-! ## Going on from where a walk has come to -/

/-- **A longer walk** comes to what a walk from there comes to. -/
theorem append {arrival : Arrival} {rest : List String} {result : Except Errno Place}
    (h : Walks d .beyond links q names p) (hrest : rest ≠ []) (harrival : arrival ≠ .making)
    (hresult : ∀ links', walk d arrival links' p rest = result) :
    walk d arrival links q (names ++ rest) = result := by
  induction h with
  | stop links q => exact hresult links
  | up hdir _ ih => rw [List.cons_append, walk_up hdir, ih hresult]
  | stay hdir hname _ ih => rw [List.cons_append, walk_stay hdir hname, ih hresult]
  | into hdir hname hnext _ ih =>
    rw [List.cons_append, walk_into hdir (hname.isName.passable hname.fits harrival _) hnext,
      ih hresult]
  -- nothing lies below a leaf, whether the walk reaches it in one part or in two
  | @leaf links q name mode hdir hname hleaf =>
    rw [List.singleton_append,
      walk_leaf hdir (hname.isName.passable hname.fits harrival _) hleaf, if_neg hrest,
      ← hresult links, walk_from_leaf hleaf hrest]
  | atLink hdir hname hlink harrival => simp at harrival
  | follow hdir hname hlink _ _ ih =>
    rw [List.cons_append, walk_follow hdir (hname.isName.passable hname.fits harrival _) hlink
      (by simp [hrest]), ← List.append_assoc, ih hresult]

/-- No walk goes on from a file. -/
theorem not_append {arrival : Arrival} {links' : Nat} {rest : List String} {t : Place}
    (h : Walks d .beyond links q names p) (hp : IsLeaf (d.look p)) (hrest : rest ≠ [])
    (harrival : arrival ≠ .making) : ¬ Walks d arrival links' q (names ++ rest) t := by
  intro ht
  -- the same walk with more links to follow fails, but it still leads to `t`
  have hstuck := (h.more links').append hrest harrival fun _ => walk_from_leaf hp hrest
  rw [Nat.add_comm, (ht.more links).walk_eq] at hstuck
  simp at hstuck

end Walks

end Stencil.Disk
