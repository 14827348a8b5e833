import Stencil.Proofs.Disk.Temporary
import Stencil.Proofs.Run

/-!
# Stencil — what log records change

A log record goes to the console and to the end of the log file, if that still
is a file. Nothing comes, nothing goes, and nothing becomes something else: every
path leads where it led, and what it leads to is what it was unless it is the
log file.

Main results:

* `Logged.log` — what a log record does to a world;
* `SameShape.locate_eq`, `Logged.read_eq` — what paths lead to afterwards.
-/

namespace Stencil

open Stencil.Disk

/-! ## Disks of the same shape -/

namespace Disk

/-- The same lies everywhere, apart from the content of files. -/
structure SameShape (d d' : Disk) : Prop where
  here : d'.here = d.here
  look : ∀ q, d'.look q = d.look q ∨
    (∃ bytes mode, d.look q = some (.file bytes mode)) ∧
      ∃ bytes mode, d'.look q = some (.file bytes mode)

namespace SameShape

variable {d d' : Disk}

private theorem walkNames_eq (h : SameShape d d') (arrival : Arrival)
    (follow : Place → List String → Except Errno Place) (q : Place) (names : List String) :
    walkNames d' arrival follow q names = walkNames d arrival follow q names := by
  -- a walk asks only whether there is a directory, a link, a file or nothing
  induction names generalizing q with
  | nil => rfl
  | cons name rest ih =>
    rw [walkNames, walkNames]
    rcases h.look q with heq | ⟨⟨_, _, hfile⟩, _, _, hfile'⟩
    · rw [heq]
      rcases h.look (name :: q) with heq' | ⟨⟨_, _, hfile⟩, _, _, hfile'⟩
      · simp only [heq', ih]
      · simp only [hfile, hfile', ih]
    · rw [hfile, hfile']

/-- Every path leads to the same place, or nowhere for the same reason. -/
theorem locate_eq (h : SameShape d d') (arrival : Arrival) (path : Path) :
    d'.locate arrival path = d.locate arrival path := by
  -- on the links that may be followed
  have hwalk : ∀ links, walk d' arrival links = walk d arrival links := by
    intro links
    induction links with
    | zero => funext q names; exact h.walkNames_eq arrival _ q names
    | succ links ih =>
      funext q names
      rw [walk, walk, ih]
      exact h.walkNames_eq arrival _ q names
  rw [locate, locate, hwalk, start, start, h.here]

theorem entryAt_eq (h : SameShape d d') {path : Path}
    (hplace : ∀ q, d.locate .beyond path = .ok q → d'.look q = d.look q) :
    d'.entryAt path = d.entryAt path := by
  rw [entryAt, entryAt, h.locate_eq]
  cases hlocate : d.locate .beyond path with
  | error code => rfl
  | ok q => simp only [hplace q hlocate]

/-- What a path leads to is something of the same kind, or it is missing for the
same reason. -/
private theorem entryAt_cases (h : SameShape d d') (path : Path) :
    (∃ code, d.entryAt path = .error code ∧ d'.entryAt path = .error code) ∨
      ∃ e e', d.entryAt path = .ok e ∧ d'.entryAt path = .ok e' ∧ e.isFile = e'.isFile ∧
        e.isDirectory = e'.isDirectory := by
  rw [entryAt, entryAt, h.locate_eq]
  cases d.locate .beyond path with
  | error code => exact .inl ⟨code, rfl, rfl⟩
  | ok q =>
    -- the place is the same, and so is the kind of what lies there
    rcases h.look q with heq | ⟨⟨b, m, hfile⟩, b', m', hfile'⟩
    · simp only [heq]
      cases d.look q with
      | none => exact .inl ⟨.noEntry, rfl, rfl⟩
      | some e => exact .inr ⟨e, e, rfl, rfl, rfl, rfl⟩
    · simp only [hfile, hfile']
      exact .inr ⟨_, _, rfl, rfl, rfl, rfl⟩

/-- A file is read on both disks, or on neither for the same reason. -/
theorem read_cases (h : SameShape d d') (path : Path) :
    (∃ fault, d.read path = .error fault ∧ d'.read path = .error fault) ∨
      ∃ bytes bytes', d.read path = .ok bytes ∧ d'.read path = .ok bytes' := by
  rw [Disk.read, Disk.read]
  cases path.hasNul with
  | true => exact .inl ⟨_, rfl, rfl⟩
  | false =>
    rcases h.entryAt_cases path with ⟨code, hcode, hcode'⟩ | ⟨e, e', he, he', hfile, -⟩
    · rw [hcode, hcode']
      exact .inl ⟨_, rfl, rfl⟩
    · rw [he, he']
      -- only a file is read
      cases e <;> cases e' <;> simp [Entry.isFile] at hfile ⊢

theorem exists_eq (h : SameShape d d') (path : Path) : d'.exists? path = d.exists? path := by
  rw [exists?, exists?, probe, probe]
  rcases h.entryAt_cases path with ⟨code, hcode, hcode'⟩ | ⟨e, e', he, he', -⟩
  · rw [hcode, hcode']
  · rw [he, he']
    split <;> rfl

theorem isFile_eq (h : SameShape d d') (path : Path) : d'.isFile? path = d.isFile? path := by
  rw [isFile?, isFile?, probe, probe]
  rcases h.entryAt_cases path with ⟨code, hcode, hcode'⟩ | ⟨e, e', he, he', hfile, -⟩
  · rw [hcode, hcode']
  · rw [he, he']
    split
    · rfl
    · simp [Except.map, hfile]

theorem isDirectory_eq (h : SameShape d d') (path : Path) :
    d'.isDirectory? path = d.isDirectory? path := by
  rw [isDirectory?, isDirectory?, probe, probe]
  rcases h.entryAt_cases path with ⟨code, hcode, hcode'⟩ | ⟨e, e', he, he', -, hdirectory⟩
  · rw [hcode, hcode']
  · rw [he, he']
    split
    · rfl
    · simp [Except.map, hdirectory]

theorem makeTemporary (h : SameShape d d') {path : Path}
    (hroom : ∃ made, d.makeTemporary path = .ok made) :
    ∃ made, d'.makeTemporary path = .ok made := by
  refine exists_makeTemporary h.here (fun _ _ ht => (h.locate_eq _ _).trans ht) (fun q => ?_) hroom
  -- where something was there still is something
  rcases h.look q with heq | ⟨⟨_, _, hfile⟩, _, _, hfile'⟩
  · rw [heq]
  · rw [hfile, hfile']
    rfl

end SameShape

end Disk

/-! ## Log records -/

/-- The log file: where it was opened, as long as there is a file. -/
def World.IsLog (w : World) (q : Place) : Prop :=
  w.logPlace? = some q ∧ ∃ bytes mode, w.disk.look q = some (.file bytes mode)

/-- Only the content of the log file may have changed, and what has been
printed. -/
structure World.Logged (w w' : World) : Prop where
  here : w'.disk.here = w.disk.here
  logPlace : w'.logPlace? = w.logPlace?
  other : ∀ q, ¬ w.IsLog q → w'.disk.look q = w.disk.look q
  self : ∀ q, w.IsLog q → ∃ bytes mode, w'.disk.look q = some (.file bytes mode)

namespace World.Logged

variable {w w' w'' : World}

theorem refl (w : World) : Logged w w :=
  ⟨rfl, rfl, fun _ _ => rfl, fun _ hq => hq.2⟩

theorem isLog_iff (h : Logged w w') {q : Place} : w'.IsLog q ↔ w.IsLog q := by
  constructor
  · rintro ⟨hplace, bytes, mode, hfile⟩
    -- no other place has become a file
    by_cases hq : w.IsLog q
    · exact hq
    · exact ⟨h.logPlace ▸ hplace, bytes, mode, h.other q hq ▸ hfile⟩
  · rintro hq
    exact ⟨h.logPlace.trans hq.1, h.self q hq⟩

theorem trans (h : Logged w w') (h' : Logged w' w'') : Logged w w'' :=
  ⟨h'.here.trans h.here, h'.logPlace.trans h.logPlace,
    fun q hq => (h'.other q (mt h.isLog_iff.mp hq)).trans (h.other q hq),
    fun q hq => h'.self q (h.isLog_iff.mpr hq)⟩

theorem sameShape (h : Logged w w') : SameShape w.disk w'.disk := by
  refine ⟨h.here, fun q => ?_⟩
  by_cases hq : w.IsLog q
  · exact .inr ⟨hq.2, h.self q hq⟩
  · exact .inl (h.other q hq)

/-- Only the log file has changed. -/
theorem grown (h : Logged w w') : Grown w.IsLog w.disk w'.disk := by
  refine ⟨h.here, fun q hq => .inl (h.other q hq), fun q hq => .inr ?_⟩
  obtain ⟨bytes, mode, hfile⟩ := hq.2
  obtain ⟨bytes', mode', hfile'⟩ := h.self q hq
  rw [hfile, hfile']
  exact ⟨trivial, trivial⟩

/-- **A log record** changes nothing but the content of the log file. -/
theorem log (w : World) (r : Log.Record) : Logged w (w.log r) := by
  -- one record adds to the log file, if it is still there
  have hfile : ∀ file, Logged w { w with disk := w.logToFile file r } := by
    intro file
    rw [World.logToFile]
    split
    · rename_i place hplace
      rw [appendAt]
      split
      · rename_i bytes mode hlook
        -- a file does not lie at the root
        have hne : place ≠ [] := by
          rintro rfl
          simp at hlook
        refine ⟨rfl, rfl, fun q hq => look_put_of_ne _ _ ?_, fun q hq => ?_⟩
        · rintro rfl
          exact hq ⟨hplace, bytes, mode, hlook⟩
        · obtain rfl := Option.some.inj (hplace.symm.trans hq.1)
          exact ⟨_, mode, look_put_self _ _ hne⟩
      · exact .refl w
    · exact .refl w
  rw [World.log]
  split
  · exact .refl w
  · rename_i setup _
    cases setup.file? with
    | none => exact ⟨rfl, rfl, fun _ _ => rfl, fun _ hq => hq.2⟩
    | some file =>
      obtain ⟨hhere, hplace, hother, hself⟩ := hfile file
      exact ⟨hhere, hplace, hother, hself⟩

/-- What a path leads to is as it was, unless that is the log file. -/
theorem entryAt_eq (h : Logged w w') {path : Path}
    (hplace : ∀ q, w.disk.locate .beyond path = .ok q → ¬ w.IsLog q) :
    w'.disk.entryAt path = w.disk.entryAt path :=
  h.sameShape.entryAt_eq fun q hq => h.other q (hplace q hq)

theorem read_eq (h : Logged w w') {path : Path}
    (hplace : ∀ q, w.disk.locate .beyond path = .ok q → ¬ w.IsLog q) :
    w'.disk.read path = w.disk.read path := by
  rw [Disk.read, Disk.read, h.entryAt_eq hplace]

end World.Logged

end Stencil
