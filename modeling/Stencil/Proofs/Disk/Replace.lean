import Stencil.Proofs.Disk.Temporary

/-!
# Stencil — one file replaced

`Replaced` says that a disk holds a file at one place and is as it was
everywhere else. Writing a file in one move comes to that: the temporary file
takes the place of nothing and is gone in the end. What was at the place of
the file may be a link to a file; no walk goes on from there, so that every
other path that led somewhere still does.

Main results:

* `Walks.replaced`, `Walks.unreplaced` — where paths lead before and after;
* `Replaced.makeTemporary` — there still is room for a temporary file;
* `makeDirectory_eq_ok_iff`, `fill_eq`, `setMode_eq`, `rename_eq_ok_iff` — what the
  requests of a write do;
* `fill_temporary` — what they do to a temporary file;
* `rename_replaced` — what the move of a new file comes to.
-/

namespace Stencil.Disk

/-! ## Disks that differ by one file -/

/-- The second disk holds this file, and is as the first one everywhere else. -/
structure Replaced (p : Place) (bytes : List UInt8) (mode : Nat) (d d' : Disk) : Prop where
  here : d'.here = d.here
  self : d'.look p = some (.file bytes mode)
  other : ∀ q, q ≠ p → d'.look q = d.look q

namespace Replaced

variable {p : Place} {bytes : List UInt8} {mode : Nat} {d d' d'' : Disk}

theorem ne_nil (h : Replaced p bytes mode d d') : p ≠ [] := by
  rintro rfl
  have hself := h.self
  simp at hself

theorem put (d : Disk) (hp : p ≠ []) (bytes : List UInt8) (mode : Nat) :
    Replaced p bytes mode d (d.put p (.file bytes mode)) :=
  ⟨rfl, look_put_self d _ hp, fun _ hq => look_put_of_ne d _ hq⟩

/-- Replacing a file twice is replacing it once. -/
theorem trans {bytes' : List UInt8} {mode' : Nat} (h : Replaced p bytes mode d d')
    (h' : Replaced p bytes' mode' d' d'') : Replaced p bytes' mode' d d'' :=
  ⟨h'.here.trans h.here, h'.self, fun q hq => (h'.other q hq).trans (h.other q hq)⟩

/-- A file in place of a file or of nothing. -/
theorem grown (h : Replaced p bytes mode d d') (hleaf : IsLeaf (d.look p)) :
    Grown (· = p) d d' := by
  refine ⟨h.here, fun q hq => .inl (h.other q hq), ?_⟩
  rintro q rfl
  exact .inr ⟨hleaf, by rw [h.self]; trivial⟩

/-- A new file taken away again leaves nothing behind. -/
theorem look_erase (h : Replaced p bytes mode d d') (hnone : d.look p = none) (q : Place) :
    (d'.erase p).look q = d.look q := by
  by_cases hq : q = p
  · subst hq
    rw [hnone, Disk.look_erase _ _ h.ne_nil, if_pos rfl]
  · rw [look_erase_of_ne _ hq, h.other q hq]

/-- A file in place of nothing is on no path's way. -/
theorem locate_new (h : Replaced p bytes mode d d') (hnone : d.look p = none) {arrival : Arrival}
    {path : Path} {q : Place} (hq : d.locate arrival path = .ok q) :
    d'.locate arrival path = .ok q := by
  have hleaf : IsLeaf (d.look p) := by
    rw [hnone]
    trivial
  exact locate_kept (h.grown hleaf).kept hq

theorem start_eq (h : Replaced p bytes mode d d') (path : Path) : d'.start path = d.start path := by
  rw [start, start, h.here]

end Replaced

/-! ## Where paths lead -/

/-- A file or a link to one. -/
def EndsAtFile (d : Disk) (p : Place) : Prop :=
  ∃ f bytes mode, LeadsTo d p f ∧ d.look f = some (.file bytes mode)

theorem EndsAtFile.isSome {d : Disk} {p : Place} (h : EndsAtFile d p) : (d.look p).isSome := by
  obtain ⟨f, bytes, mode, rfl | ⟨target, links, hlink, -⟩, hf⟩ := h
  · rw [hf]; rfl
  · rw [hlink]; rfl

/-- What a walk that comes to a place and goes on cannot pass: no directory is there,
and no link that leads to one. -/
def IsEnd (d : Disk) (p : Place) : Prop :=
  ∀ f, LeadsTo d p f → ∀ m, d.look f ≠ some (.directory m)

theorem IsEnd.not_directory {d : Disk} {p : Place} (h : IsEnd d p) (m : Nat) :
    d.look p ≠ some (.directory m) :=
  h p (.inl rfl) m

theorem isEnd_of_leaf {d : Disk} {p : Place} (h : IsLeaf (d.look p)) : IsEnd d p := by
  rintro f (rfl | ⟨target, links, hlink, -⟩) m hm
  · rw [hm] at h
    exact h.elim
  · rw [hlink] at h
    exact h.elim

namespace Walks

variable {d d' : Disk} {links : Nat} {p q t : Place} {names : List String}
  {bytes : List UInt8} {mode : Nat}

/-- A walk that goes on has come to a directory. -/
theorem directory_of_append {rest : List String} (h : Walks d .atLink links q (names ++ rest) t)
    (hrest : rest ≠ []) :
    ∃ f m, Walks d .beyond links q names f ∧ d.look f = some (.directory m) := by
  generalize hall : names ++ rest = all at h
  -- on the walk; without names before the rest it has come to its start
  induction h generalizing names with
  | stop links q => exact (hrest (List.append_eq_nil_iff.mp hall).2).elim
  | @up links q p _ mode hdir _ ih =>
    rcases List.append_eq_cons_iff.mp hall with ⟨rfl, -⟩ | ⟨names, rfl, hnames⟩
    · exact ⟨q, mode, .stop links q, hdir⟩
    · obtain ⟨f, m, hwalk, hf⟩ := ih hnames.symm
      exact ⟨f, m, .up hdir hwalk, hf⟩
  | @stay links q p name _ mode hdir hname _ ih =>
    rcases List.append_eq_cons_iff.mp hall with ⟨rfl, -⟩ | ⟨names, rfl, hnames⟩
    · exact ⟨q, mode, .stop links q, hdir⟩
    · obtain ⟨f, m, hwalk, hf⟩ := ih hnames.symm
      exact ⟨f, m, .stay hdir hname hwalk, hf⟩
  | @into links q p name _ mode mode' hdir hname hnext _ ih =>
    rcases List.append_eq_cons_iff.mp hall with ⟨rfl, -⟩ | ⟨names, rfl, hnames⟩
    · exact ⟨q, mode, .stop links q, hdir⟩
    · obtain ⟨f, m, hwalk, hf⟩ := ih hnames.symm
      exact ⟨f, m, .into hdir (hname.beyond _) hnext hwalk, hf⟩
  | @leaf links q name mode hdir _ _ =>
    rcases List.append_eq_cons_iff.mp hall with ⟨rfl, -⟩ | ⟨names, rfl, hnames⟩
    · exact ⟨q, mode, .stop links q, hdir⟩
    · exact (hrest (List.append_eq_nil_iff.mp hnames.symm).2).elim
  | @atLink links q name target mode hdir _ _ =>
    rcases List.append_eq_cons_iff.mp hall with ⟨rfl, -⟩ | ⟨names, rfl, hnames⟩
    · exact ⟨q, mode, .stop links q, hdir⟩
    · exact (hrest (List.append_eq_nil_iff.mp hnames.symm).2).elim
  | @follow links q p name target rest' mode hdir hname hlink _ _ ih =>
    rcases List.append_eq_cons_iff.mp hall with ⟨rfl, -⟩ | ⟨names, rfl, rfl⟩
    · exact ⟨q, mode, .stop (links + 1) q, hdir⟩
    · obtain ⟨f, m, hwalk, hf⟩ := ih (List.append_assoc ..)
      exact ⟨f, m, .follow hdir (hname.beyond _) hlink (by simp) hwalk, hf⟩

/-- A walk leads to one place, however many links it may follow. -/
theorem unique {arrival : Arrival} {links' : Nat} (h : Walks d arrival links q names p)
    (h' : Walks d arrival links' q names t) : p = t := by
  have hwalk := (h.more links').walk_eq
  rw [Nat.add_comm, (h'.more links).walk_eq] at hwalk
  exact (Except.ok.inj hwalk).symm

/-- **Every path leads to where it led** after a file was replaced. -/
theorem replaced (h : Walks d .atLink links q names t) (hr : Replaced p bytes mode d d')
    (hp : IsEnd d p) : Walks d' .atLink links q names t := by
  -- the changed place is no directory
  have hdirectory : ∀ {r : Place} {m : Nat}, d.look r = some (.directory m) →
      d'.look r = some (.directory m) := by
    intro r m hm
    have hne : r ≠ p := by
      rintro rfl
      exact hp.not_directory m hm
    rw [hr.other r hne, hm]
  induction h with
  | stop links q => exact .stop links q
  | up hdir _ ih => exact .up (hdirectory hdir) ih
  | stay hdir hname _ ih => exact .stay (hdirectory hdir) hname ih
  | into hdir hname hnext _ ih => exact .into (hdirectory hdir) hname (hdirectory hnext) ih
  -- at the changed place there is a file now, so a walk ends there in any case
  | @leaf links q name mode hdir hname hleaf =>
    refine .leaf (hdirectory hdir) hname ?_
    by_cases hne : name :: q = p
    · rw [hne, hr.self]
      trivial
    · rwa [hr.other _ hne]
  | @atLink links q name target mode hdir hname hlink =>
    by_cases hne : name :: q = p
    · exact .leaf (hdirectory hdir) hname (by rw [hne, hr.self]; trivial)
    · exact .atLink (hdirectory hdir) hname (by rw [hr.other _ hne, hlink]) rfl
  | @follow links q r name target rest mode hdir hname hlink hend hrest ih =>
    by_cases hne : name :: q = p
    · -- the link leads to no directory, so nothing comes after its names
      have hrest' : rest ≠ [] := fun hnil => hend ⟨hnil, rfl⟩
      obtain ⟨f, m, hwalk, hf⟩ := directory_of_append hrest hrest'
      subst hne
      exact (hp f (.inr ⟨target, links, hlink, hwalk⟩) m hf).elim
    · exact .follow (hdirectory hdir) hname (by rw [hr.other _ hne, hlink]) hend ih

/-- A path that leads elsewhere led there before the file was replaced. -/
theorem unreplaced (h : Walks d' .atLink links q names t) (hr : Replaced p bytes mode d d')
    (ht : t ≠ p) : Walks d .atLink links q names t := by
  -- what is no file has not changed
  have hother : ∀ {r : Place} {e : Entry}, d'.look r = some e → (∀ b m, e ≠ .file b m) →
      d.look r = some e := by
    intro r e hlook he
    have hne : r ≠ p := by
      rintro rfl
      rw [hr.self] at hlook
      exact he _ _ (Option.some.inj hlook).symm
    rw [← hr.other r hne, hlook]
  induction h with
  | stop links q => exact .stop links q
  | up hdir _ ih => exact .up (hother hdir (by simp)) (ih ht)
  | stay hdir hname _ ih => exact .stay (hother hdir (by simp)) hname (ih ht)
  | into hdir hname hnext _ ih =>
    exact .into (hother hdir (by simp)) hname (hother hnext (by simp)) (ih ht)
  | leaf hdir hname hleaf =>
    exact .leaf (hother hdir (by simp)) hname (by rwa [← hr.other _ ht])
  | atLink hdir hname hlink =>
    exact .atLink (hother hdir (by simp)) hname (hother hlink (by simp)) rfl
  | follow hdir hname hlink hend _ ih =>
    exact .follow (hother hdir (by simp)) hname (hother hlink (by simp)) hend (ih ht)

end Walks

/-- A link to a file leads to no directory. -/
theorem EndsAtFile.isEnd {d : Disk} {p : Place} (h : EndsAtFile d p) : IsEnd d p := by
  obtain ⟨f, bytes, mode, rfl | ⟨target, links, hlink, hwalk⟩, hf⟩ := h
  · exact isEnd_of_leaf (by rw [hf]; trivial)
  · rintro g (rfl | ⟨target', links', hlink', hwalk'⟩) m hm
    · rw [hlink] at hm
      simp at hm
    · rw [hlink] at hlink'
      obtain rfl := Entry.link.inj (Option.some.inj hlink')
      obtain rfl := hwalk.unique hwalk'
      rw [hf] at hm
      simp at hm

namespace Replaced

variable {p : Place} {bytes : List UInt8} {mode : Nat} {d d' : Disk}

theorem locate_eq (h : Replaced p bytes mode d d') (hp : IsEnd d p) {path : Path} {t : Place}
    (ht : d.locate .atLink path = .ok t) : d'.locate .atLink path = .ok t := by
  obtain ⟨hlimit, hwalk⟩ := locate_eq_ok_iff.mp ht
  exact locate_eq_ok_iff.mpr ⟨hlimit, h.start_eq path ▸ hwalk.replaced h hp⟩

theorem locate_back (h : Replaced p bytes mode d d') {path : Path} {t : Place}
    (ht : d'.locate .atLink path = .ok t) (hne : t ≠ p) : d.locate .atLink path = .ok t := by
  obtain ⟨hlimit, hwalk⟩ := locate_eq_ok_iff.mp ht
  exact locate_eq_ok_iff.mpr ⟨hlimit, h.start_eq path ▸ hwalk.unreplaced h hne⟩

/-- The file is where a path leads that led to its place. -/
theorem locate_beyond (h : Replaced p bytes mode d d') (hp : IsEnd d p) {path : Path}
    (ht : d.locate .atLink path = .ok p) : d'.locate .beyond path = .ok p := by
  obtain ⟨hlimit, hwalk⟩ := locate_eq_ok_iff.mp (h.locate_eq hp ht)
  exact locate_eq_ok_iff.mpr ⟨hlimit, hwalk.beyond (by simp [h.self])⟩

theorem entryAt_eq (h : Replaced p bytes mode d d') (hp : IsEnd d p) {path : Path}
    (ht : d.locate .atLink path = .ok p) : d'.entryAt path = .ok (.file bytes mode) :=
  entryAt_eq_ok_iff.mpr ⟨p, h.locate_beyond hp ht, h.self⟩

/-- There is still room for a temporary file beside any file. -/
theorem makeTemporary (h : Replaced p bytes mode d d') (hp : EndsAtFile d p) {path : Path}
    (hroom : ∃ made, d.makeTemporary path = .ok made) :
    ∃ made, d'.makeTemporary path = .ok made := by
  refine exists_makeTemporary h.here (fun _ _ ht => h.locate_eq hp.isEnd ht) (fun q => ?_) hroom
  -- something lay at the changed place, and something still does
  by_cases hq : q = p
  · rw [hq, h.self, hp.isSome]
    rfl
  · rw [h.other q hq]

end Replaced

/-! ## The requests of a write -/

section Requests

variable {d d' : Disk} {path : Path} {t : Place} {bytes : List UInt8} {mode : Nat}

theorem locate_beyond_of_file (ht : d.locate .atLink path = .ok t)
    (hfile : d.look t = some (.file bytes mode)) : d.locate .beyond path = .ok t := by
  obtain ⟨hlimit, hwalk⟩ := locate_eq_ok_iff.mp ht
  exact locate_eq_ok_iff.mpr ⟨hlimit, hwalk.beyond (by simp [hfile])⟩

theorem fill_eq (ht : d.locate .atLink path = .ok t) (hfile : d.look t = some (.file bytes mode))
    (content : List UInt8) : d.fill path content = .ok (d.put t (.file content mode)) := by
  rw [fill, changeFile, locate_beyond_of_file ht hfile]
  simp only [hfile]

theorem setMode_eq (hnul : path.hasNul = false) (ht : d.locate .atLink path = .ok t)
    (hfile : d.look t = some (.file bytes mode)) (mode' : Nat) :
    d.setMode path mode' = .ok (d.put t (.file bytes mode')) := by
  rw [setMode, hnul, locate_beyond_of_file ht hfile]
  simp only [hfile]
  rfl

theorem remove_eq (hnul : path.hasNul = false) (ht : d.locate .atLink path = .ok t)
    (hfile : d.look t = some (.file bytes mode)) : d.remove path = .ok (d.erase t) := by
  rw [remove, hnul, ht]
  simp only [hfile]
  rfl

/-- **A temporary file is filled and gets its permissions**: three changes of one file,
which add up to one. -/
theorem fill_temporary (hnul : path.hasNul = false) (ht : d.locate .atLink path = .ok t)
    (hnone : d.look t = none) (content : List UInt8) (mode : Nat) :
    ∃ filled set, Replaced t [] temporaryMode d (d.put t (.file [] temporaryMode)) ∧
      (d.put t (.file [] temporaryMode)).fill path content = .ok filled ∧
      Replaced t content temporaryMode d filled ∧ filled.setMode path mode = .ok set ∧
      Replaced t content mode d set := by
  have hne : t ≠ [] := by
    rintro rfl
    simp at hnone
  have hmade : Replaced t [] temporaryMode d (d.put t (.file [] temporaryMode)) :=
    .put d hne [] temporaryMode
  have hfilled := hmade.trans (.put _ hne content temporaryMode)
  have hset := hfilled.trans (.put _ hne content mode)
  exact ⟨_, _, hmade, fill_eq (hmade.locate_new hnone ht) hmade.self content, hfilled,
    setMode_eq hnul (hfilled.locate_new hnone ht) hfilled.self mode, hset⟩

/-- **What a move does**, and when it is granted. -/
theorem rename_eq_ok_iff {source target : Path} :
    d.rename source target = .ok d' ↔
      source.hasNul = false ∧ target.hasNul = false ∧ target.endsInName = true ∧
        ∃ origin place e, d.locate .atLink source = .ok origin ∧
          d.locate .atLink target = .ok place ∧ d.look origin = some e ∧
          (∀ m, d.look place ≠ some (.directory m)) ∧ d' = (d.erase origin).put place e := by
  rw [rename]
  -- the guards are checked in this order; the other direction passes them one by one
  constructor
  · intro h
    split at h
    · simp at h
    · rename_i hnul
      simp only [Bool.or_eq_true, not_or, Bool.not_eq_true] at hnul
      split at h
      · simp at h
      · simp at h
      · rename_i origin place horigin hplace
        split at h
        · simp at h
        · rename_i hends
          split at h
          · simp at h
          · simp at h
          · rename_i e hsome hnodir
            exact ⟨hnul.1, hnul.2, by simpa using hends, origin, place, e, horigin, hplace,
              hsome, hnodir, (Except.ok.inj h).symm⟩
  · rintro ⟨hsource, htarget, hends, origin, place, e, horigin, hplace, hsome, hnodir, rfl⟩
    simp only [hsource, htarget, hends, horigin, hplace, hsome, Bool.or_false, Bool.not_true,
      Bool.false_eq_true, if_false]

/-- **A move of a new file** comes to one file replaced. -/
theorem rename_replaced {d₀ : Disk} {temporary : Path} {p : Place} {content : List UInt8}
    (hd : Replaced t content mode d₀ d) (hnone : d₀.look t = none)
    (ht : d.locate .atLink temporary = .ok t) (hp : d.locate .atLink path = .ok p) (hne : p ≠ [])
    (h : d.rename temporary path = .ok d') : Replaced p content mode d₀ d' := by
  obtain ⟨-, -, -, origin, place, e, horigin, hplace, he, -, rfl⟩ := rename_eq_ok_iff.mp h
  obtain rfl := Except.ok.inj (ht.symm.trans horigin)
  obtain rfl := Except.ok.inj (hp.symm.trans hplace)
  obtain rfl := Option.some.inj (hd.self.symm.trans he)
  -- the new file is gone from where it was made, as if it had never been
  exact ⟨hd.here, look_put_self _ _ hne,
    fun q hq => (look_put_of_ne _ _ hq).trans (hd.look_erase hnone q)⟩

theorem makeDirectory_eq_ok_iff {d d' : Disk} {path : Path} :
    d.makeDirectory path = .ok d' ↔
      path.hasNul = false ∧ ∃ place, d.locate .atLink path = .ok place ∧ d.look place = none ∧
        d' = d.put place (.directory newDirectoryMode) := by
  rw [makeDirectory]
  cases path.hasNul with
  | true => simp
  | false =>
    cases d.locate .atLink path with
    | error code => simp
    | ok place =>
      cases hlook : d.look place with
      | none => simp [hlook, eq_comm]
      | some e => simp [hlook]

/-- To make a directory changes nothing else. -/
theorem grown_makeDirectory (h : d.makeDirectory path = .ok d') : Grown (fun _ => False) d d' := by
  obtain ⟨-, place, -, hnone, rfl⟩ := makeDirectory_eq_ok_iff.mp h
  -- something lies at the root, so the new directory is not there
  have hne : place ≠ [] := by
    rintro rfl
    simp at hnone
  refine ⟨rfl, fun q _ => ?_, fun q hq => hq.elim⟩
  by_cases hq : q = place
  · subst hq
    exact .inr ⟨hnone, _, look_put_self _ _ hne⟩
  · exact .inl (look_put_of_ne _ _ hq)

end Requests

end Stencil.Disk
