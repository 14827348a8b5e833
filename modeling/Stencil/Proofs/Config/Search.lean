import Stencil.Config.Load
import Stencil.Proofs.Disk.Refusal
import Stencil.Proofs.Run

/-!
# Stencil — the nearest configuration file

The configuration file is looked for in a directory and in those around it, the nearest
first. A directory is passed over if nothing of that name lies in it, or something that
is no file. The search ends at the first directory that has the file, at the root, or
when it has looked at as many directories as it may. It also ends where the disk refuses
to look: at a name or a path that is too long.

Main results:

* `searchUp_eq` — the directories that a search looks at;
* `find?_nearest` — how a search ends.
-/

namespace Stencil.Disk

/-- A directory and the directories around it, the nearest first. -/
def around (directory : Path) : List Path :=
  directory.parts.reverse.tails.map fun names => ⟨directory.anchor, names.reverse⟩

theorem around_root {directory : Path} (h : directory.parts = []) :
    around directory = [directory] ∧ directory.parent = directory := by
  obtain ⟨anchor, parts⟩ := directory
  obtain rfl : parts = [] := h
  exact ⟨rfl, rfl⟩

theorem around_cons {directory : Path} (h : directory.parts ≠ []) :
    around directory = directory :: around directory.parent ∧ directory.parent ≠ directory := by
  obtain ⟨anchor, parts⟩ := directory
  obtain ⟨front, last, rfl⟩ := (List.eq_nil_or_concat parts).resolve_left h
  constructor
  · simp [around, Path.parent]
  · intro heq
    have hlength := congrArg (fun p : Path => p.parts.length) heq
    simp [Path.parent] at hlength

end Stencil.Disk

namespace Stencil.Config

open Stencil.Disk Work

/-! ## Single directories -/

/-- A directory with a configuration file: the name leads to a file there. -/
def HasConfig (d : Disk) (directory : Path) : Prop :=
  (directory.child configFileName).hasNul = false ∧
    ∃ bytes mode, d.entryAt (directory.child configFileName) = .ok (.file bytes mode)

/-- A directory in which the disk refuses to look for a configuration file. -/
def RefusesLook (d : Disk) (directory : Path) : Prop :=
  (directory.child configFileName).hasNul = false ∧
    d.entryAt (directory.child configFileName) = .error .nameTooLong

/-- A directory in which there is no configuration file. -/
def IsPassedOver (d : Disk) (directory : Path) : Prop :=
  ¬ HasConfig d directory ∧ ¬ RefusesLook d directory

/-- The refusal to look in a directory. -/
def lookRefusal (directory : Path) : Fault :=
  .refused .nameTooLong (directory.child configFileName).text

section Directories

variable {d : Disk} {directory : Path}

/-- The answers that a search can get. -/
theorem isFile?_child :
    (HasConfig d directory ↔ d.isFile? (directory.child configFileName) = .ok true) ∧
    (RefusesLook d directory ↔
      d.isFile? (directory.child configFileName) = .error (lookRefusal directory)) ∧
    (IsPassedOver d directory ↔ d.isFile? (directory.child configFileName) = .ok false) := by
  rw [IsPassedOver, HasConfig, RefusesLook, Disk.isFile?, probe]
  cases (directory.child configFileName).hasNul with
  | true => simp [Except.map]
  | false =>
    cases d.entryAt (directory.child configFileName) with
    | error code => cases code <;> simp [Except.map, lookRefusal]
    | ok e => cases e <;> simp [Except.map, Entry.isFile]

/-- A directory of that name is no configuration file. -/
theorem isPassedOver_of_directory {mode : Nat}
    (h : d.entryAt (directory.child configFileName) = .ok (.directory mode)) :
    IsPassedOver d directory := by
  constructor
  · rintro ⟨-, bytes, mode', hfile⟩
    simp [h] at hfile
  · rintro ⟨-, hlong⟩
    simp [h] at hlong

end Directories

/-! ## The search -/

/-- Looks in one directory after the other. -/
def searchIn : List Path → Work (Option Path)
  | [] => return none
  | directory :: rest => do
    if ← Work.isFile? (directory.child configFileName) then
      return some (directory.child configFileName)
    else searchIn rest

/-- **The directories that a search looks at**: so many of those around the first one. -/
theorem searchUp_eq (depth : Nat) (directory : Path) :
    searchUp depth directory = searchIn ((around directory).take depth) := by
  induction depth generalizing directory with
  | zero => rfl
  | succ depth ih =>
    rw [searchUp]
    by_cases hroot : directory.parts = []
    · obtain ⟨haround, hparent⟩ := around_root hroot
      rw [haround, List.take_succ_cons, List.take_nil, searchIn, if_pos hparent, searchIn]
    · obtain ⟨haround, hparent⟩ := around_cons hroot
      rw [haround, if_neg hparent, ih, List.take_succ_cons, searchIn]

/-- A directory of a list to which a search comes: it passes over all those before. -/
def ComesTo (d : Disk) (directories : List Path) (directory : Path) : Prop :=
  ∃ before after, directories = before ++ directory :: after ∧ ∀ b ∈ before, IsPassedOver d b

/-- How a search in directories ends: with nothing if there is no configuration file in
any of them, with the nearest one, or where the disk refuses to look. -/
inductive SearchEnds (d : Disk) (directories : List Path) : Except Failure (Option Path) → Prop
  | nothing (h : ∀ directory ∈ directories, IsPassedOver d directory) :
      SearchEnds d directories (.ok none)
  | found {directory : Path} (hcomes : ComesTo d directories directory)
      (hhas : HasConfig d directory) :
      SearchEnds d directories (.ok (some (directory.child configFileName)))
  | refused {directory : Path} (hcomes : ComesTo d directories directory)
      (hrefuses : RefusesLook d directory) :
      SearchEnds d directories (.error (.disk (lookRefusal directory)))

theorem ComesTo.cons {d : Disk} {first directory : Path} {rest : List Path}
    (h : ComesTo d rest directory) (hfirst : IsPassedOver d first) :
    ComesTo d (first :: rest) directory := by
  obtain ⟨before, after, rfl, hbefore⟩ := h
  exact ⟨first :: before, after, rfl, List.forall_mem_cons.mpr ⟨hfirst, hbefore⟩⟩

theorem exists_searchEnds (d : Disk) (directories : List Path) :
    ∃ result, SearchEnds d directories result := by
  induction directories with
  | nil => exact ⟨_, .nothing (by simp)⟩
  | cons first rest ih =>
    have hfirst : ComesTo d (first :: rest) first := ⟨[], rest, rfl, by simp⟩
    by_cases hhas : HasConfig d first
    · exact ⟨_, .found hfirst hhas⟩
    by_cases hrefuses : RefusesLook d first
    · exact ⟨_, .refused hfirst hrefuses⟩
    -- nothing is found there, so the search ends as in the others
    have hpassed : IsPassedOver d first := ⟨hhas, hrefuses⟩
    obtain ⟨result, hrest⟩ := ih
    cases hrest with
    | nothing h => exact ⟨_, .nothing (List.forall_mem_cons.mpr ⟨hpassed, h⟩)⟩
    | found hcomes hhas => exact ⟨_, .found (hcomes.cons hpassed) hhas⟩
    | refused hcomes hrefuses => exact ⟨_, .refused (hcomes.cons hpassed) hrefuses⟩

section Search

variable {w : World} {directories before rest : List Path} {result : Except Failure (Option Path)}

theorem searchIn_passed (h : ∀ b ∈ before, IsPassedOver w.disk b) :
    (searchIn (before ++ rest)).runIn w = (searchIn rest).runIn w := by
  induction before with
  | nil => rfl
  | cons b before ih =>
    obtain ⟨hb, hbefore⟩ := List.forall_mem_cons.mp h
    rw [List.cons_append, searchIn, runIn_bind, runIn_isFile?, isFile?_child.2.2.mp hb]
    exact ih hbefore

theorem SearchEnds.searchIn_runIn (h : SearchEnds w.disk directories result) :
    (searchIn directories).runIn w = (result, w) := by
  cases h with
  | nothing h => rw [← List.append_nil directories, searchIn_passed h, searchIn, runIn_pure]
  | found hcomes hhas =>
    obtain ⟨before, after, rfl, hbefore⟩ := hcomes
    rw [searchIn_passed hbefore, searchIn, runIn_bind, runIn_isFile?, isFile?_child.1.mp hhas]
    rfl
  | refused hcomes hrefuses =>
    obtain ⟨before, after, rfl, hbefore⟩ := hcomes
    rw [searchIn_passed hbefore, searchIn, runIn_bind, runIn_isFile?,
      isFile?_child.2.1.mp hrefuses]
    rfl

/-- There is one way for a search to end. -/
theorem SearchEnds.unique {result' : Except Failure (Option Path)}
    (h : SearchEnds w.disk directories result) (h' : SearchEnds w.disk directories result') :
    result = result' :=
  (Prod.mk.inj (h.searchIn_runIn.symm.trans h'.searchIn_runIn)).1

end Search

/-! ## The nearest configuration file -/

section Nearest

variable {w : World} {start? : Option Path} {directory : Path}

/-- A search starts at a given directory or the working directory, once links are
followed. -/
theorem find?_runIn
    (hstart : w.disk.resolve (start?.getD (pathOf w.disk.here)) = .ok directory) :
    (find? start?).runIn w = (searchIn ((around directory).take searchDepth)).runIn w := by
  have hhere : workingDirectory.runIn w = (.ok (pathOf w.disk.here), w) := rfl
  have hresolve : (Work.resolve (start?.getD (pathOf w.disk.here))).runIn w =
      (.ok directory, w) := by
    rw [runIn_resolve, hstart, answered_ok]
  rw [← searchUp_eq]
  cases start? with
  | none =>
    rw [find?, runIn_bind_of_ok hhere]
    exact runIn_bind_of_ok hresolve
  | some start => exact runIn_bind_of_ok hresolve

end Nearest

/-- A file two directories up, and a directory of its name one directory up. -/
private def searchedWorld : World :=
  World.ofDisk <| Disk.empty ["b", "a", "w"]
    |>.put [configFileName, "a", "w"] (.directory newDirectoryMode)
    |>.put [configFileName, "w"] (.file [] newFileMode)

/-- A link of that name to a name that is too long. -/
private def overlongWorld : World :=
  World.ofDisk <| Disk.empty ["w"] |>.put [configFileName, "w"] (.link (longName 256))

private theorem refusesLook_overlongWorld : RefusesLook overlongWorld.disk ⟨.root, ["w"]⟩ := by
  refine ⟨by decide, ?_⟩
  have hwalk : walk overlongWorld.disk .beyond linkLimit [] ["w", configFileName] =
      .error .nameTooLong := by
    have hroot : overlongWorld.disk.look [] = some (.directory newDirectoryMode) := rfl
    have hdir : overlongWorld.disk.look ["w"] = some (.directory newDirectoryMode) := by
      decide +kernel
    have hlink : overlongWorld.disk.look [configFileName, "w"] = some (.link (longName 256)) :=
      rfl
    have hw : IsName "w" := ⟨by decide, by decide, by decide⟩
    have hname : IsName configFileName := ⟨by decide, by decide, by decide⟩
    rw [walk_into hroot (hw.passable (by decide) (by decide) _) hdir]
    exact walk_link_longName (by decide) hdir (hname.passable (by decide) (by decide) _) hlink
  have hlocate : overlongWorld.disk.locate .beyond (Path.child ⟨.root, ["w"]⟩ configFileName) =
      .error .nameTooLong :=
    locate_tooLong hwalk
  rw [entryAt, hlocate]

end Stencil.Config
