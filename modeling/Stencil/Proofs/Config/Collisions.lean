import Mathlib.Data.Finset.Card
import Stencil.Proofs.Config.Load
import Stencil.Proofs.Disk.Refusal
import Stencil.Proofs.Disk.Resolve

/-!
# Stencil — modules in one directory

A check of settings goes through the modules and remembers in which directory each one
lies, and of the modules in one directory the latest. So a module whose directory is
taken is reported together with the nearest of those before it, once, however many share
the directory.

Main results:

* `auditModules_reports` — what a run over the modules reports;
* `reportsCollisions_from`, `length_collisionsFrom` — which modules are reported, and how
  many they are;
* `audit_collisions` — what a check of loaded settings says.
-/

namespace Stencil.Config

open Stencil.Disk Work

/-! ## Collisions -/

/-- The collisions of modules in their directories with earlier ones. `seen` holds those
before, the latest first. -/
def collisionsFrom (seen : List (Path × String)) : List (Path × String) → List Collision
  | [] => []
  | (directory, name) :: rest =>
    (collision? seen directory name).toList ++ collisionsFrom ((directory, name) :: seen) rest

/-- A directory that stands earlier in the list too. -/
def IsRepeat (directories : List Path) (j : Nat) : Prop :=
  ∃ i < j, ∃ directory, directories[i]? = some directory ∧ directories[j]? = some directory

/-- The module at a place in the list collides with the nearest earlier one in its
directory. -/
def CollidesAt (placed : List (Path × String)) (j : Nat) (c : Collision) : Prop :=
  ∃ before between after,
    placed = before ++ (c.directory, c.earlier) :: (between ++ (c.directory, c.later) :: after) ∧
      j = before.length + 1 + between.length ∧ ∀ m ∈ between, m.1 ≠ c.directory

/-- Collisions that are those of the modules whose directory an earlier one has, one for
each of them, in their order. -/
def ReportsCollisions (placed : List (Path × String)) (collisions : List Collision) : Prop :=
  ∃ repeats : List Nat, repeats.Pairwise (· < ·) ∧
    (∀ j, j ∈ repeats ↔ IsRepeat (placed.map (·.1)) j) ∧
    List.Forall₂ (CollidesAt placed) repeats collisions

section Step

variable {seen rest : List (Path × String)} {directory : Path} {name : String} {c : Collision}

theorem collidesAt_of_collision? (h : collision? seen directory name = some c) :
    CollidesAt (seen.reverse ++ (directory, name) :: rest) seen.length c := by
  rw [collision?, Option.map_eq_some_iff] at h
  obtain ⟨earlier, hlookup, rfl⟩ := h
  -- the latest is the first that a look in the memory meets
  obtain ⟨between, before, rfl, hbetween⟩ := List.lookup_eq_some_iff.mp hlookup
  refine ⟨before.reverse, between.reverse, rest, by simp, by simp; omega, fun m hm => ?_⟩
  have hne := hbetween m (List.mem_reverse.mp hm)
  exact fun heq => by simp [heq] at hne

theorem not_isRepeat_of_collision? (h : collision? seen directory name = none) :
    ¬ IsRepeat ((seen.reverse ++ (directory, name) :: rest).map (·.1)) seen.length := by
  rw [collision?, Option.map_eq_none_iff, List.lookup_eq_none_iff] at h
  rintro ⟨i, hi, directory', hearlier, hlater⟩
  have hlength : i < seen.reverse.length := by simpa using hi
  rw [List.map_append, List.getElem?_append_right (by simp)] at hlater
  rw [List.map_append, List.getElem?_append_left (by simpa using hi), List.getElem?_map,
    Option.map_eq_some_iff] at hearlier
  obtain rfl : directory = directory' := by simpa using hlater
  obtain ⟨m, hm, rfl⟩ := hearlier
  have hne := h m (List.mem_reverse.mp (List.mem_of_getElem? hm))
  simp at hne

theorem CollidesAt.isRepeat {placed : List (Path × String)} {j : Nat} (h : CollidesAt placed j c) :
    IsRepeat (placed.map (·.1)) j := by
  obtain ⟨before, between, after, rfl, rfl, -⟩ := h
  refine ⟨before.length, by omega, c.directory, ?_, ?_⟩
  · simp
  · rw [List.map_append, List.getElem?_append_right (by simp; omega)]
    simp [Nat.add_assoc, Nat.add_comm 1]

end Step

/-- **Which modules are reported** of those behind the modules seen. -/
theorem reportsCollisions_from (seen rest : List (Path × String)) :
    ∃ repeats : List Nat, repeats.Pairwise (· < ·) ∧
      (∀ j, j ∈ repeats ↔
        seen.length ≤ j ∧ IsRepeat ((seen.reverse ++ rest).map (·.1)) j) ∧
      List.Forall₂ (CollidesAt (seen.reverse ++ rest)) repeats (collisionsFrom seen rest) := by
  -- on the modules that are left; each one is seen by those after it
  induction rest generalizing seen with
  | nil =>
    refine ⟨[], .nil, fun j => ?_, .nil⟩
    simp only [List.append_nil, List.not_mem_nil, false_iff, not_and]
    rintro hj ⟨i, -, directory, -, hlater⟩
    rw [List.getElem?_eq_none (by simpa using hj)] at hlater
    simp at hlater
  | cons m rest ih =>
    obtain ⟨directory, name⟩ := m
    obtain ⟨repeats, hincreasing, hmem, hreports⟩ := ih ((directory, name) :: seen)
    have hlist : ((directory, name) :: seen).reverse ++ rest =
        seen.reverse ++ (directory, name) :: rest := by
      simp
    rw [hlist] at hmem hreports
    rw [collisionsFrom]
    cases hcollision : collision? seen directory name with
    | none =>
      refine ⟨repeats, hincreasing, fun j => (hmem j).trans ?_, hreports⟩
      have hfirst := @not_isRepeat_of_collision? _ rest _ _ hcollision
      constructor
      · exact fun ⟨hj, hrepeat⟩ => ⟨by simp at hj; omega, hrepeat⟩
      · rintro ⟨hj, hrepeat⟩
        have hne : j ≠ seen.length := by
          rintro rfl
          exact hfirst hrepeat
        exact ⟨by simp; omega, hrepeat⟩
    | some c =>
      have hfirst := @collidesAt_of_collision? _ rest _ _ _ hcollision
      refine ⟨seen.length :: repeats, List.pairwise_cons.mpr ⟨fun j hj => ?_, hincreasing⟩,
        fun j => ?_, .cons hfirst hreports⟩
      · have hj := ((hmem j).mp hj).1
        simp at hj
        omega
      · rw [List.mem_cons, hmem]
        constructor
        · rintro (rfl | ⟨hj, hrepeat⟩)
          · exact ⟨le_rfl, hfirst.isRepeat⟩
          · exact ⟨by simp at hj; omega, hrepeat⟩
        · rintro ⟨hj, hrepeat⟩
          rcases Nat.eq_or_lt_of_le hj with rfl | hj
          · exact .inl rfl
          · exact .inr ⟨by simp; omega, hrepeat⟩

/-- **How many are reported**: every module that brings no new directory. -/
theorem length_collisionsFrom (seen rest : List (Path × String)) :
    (collisionsFrom seen rest).length +
        ((seen.map (·.1)).toFinset ∪ (rest.map (·.1)).toFinset).card =
      rest.length + (seen.map (·.1)).toFinset.card := by
  induction rest generalizing seen with
  | nil => simp [collisionsFrom]
  | cons m rest ih =>
    obtain ⟨directory, name⟩ := m
    have hrest := ih ((directory, name) :: seen)
    have hunion : (seen.map (·.1)).toFinset ∪ (((directory, name) :: rest).map (·.1)).toFinset =
        (((directory, name) :: seen).map (·.1)).toFinset ∪ (rest.map (·.1)).toFinset := by
      simp
    have hseen : (((directory, name) :: seen).map (·.1)).toFinset =
        insert directory (seen.map (·.1)).toFinset := by
      simp
    rw [collisionsFrom, List.length_append, hunion, List.length_cons]
    rw [hseen] at hrest ⊢
    cases hcollision : collision? seen directory name with
    | none =>
      have hnew : directory ∉ (seen.map (·.1)).toFinset := by
        rw [List.mem_toFinset, List.mem_map]
        rintro ⟨m, hm, rfl⟩
        rw [collision?, Option.map_eq_none_iff, List.lookup_eq_none_iff] at hcollision
        simpa using hcollision m hm
      rw [Finset.card_insert_of_notMem hnew] at hrest
      simp only [Option.toList_none, List.length_nil]
      omega
    | some c =>
      have hold : directory ∈ (seen.map (·.1)).toFinset := by
        rw [collision?, Option.map_eq_some_iff] at hcollision
        obtain ⟨earlier, hlookup, -⟩ := hcollision
        obtain ⟨before, after, rfl, -⟩ := List.lookup_eq_some_iff.mp hlookup
        simp
      rw [Finset.insert_eq_of_mem hold] at hrest ⊢
      simp only [Option.toList_some, List.length_singleton]
      omega

/-! ## A run over the modules -/

/-- The directory of a module is there. -/
def IsThere (d : Disk) (s : Settings) (root : Path) (e : ModuleEntry) : Prop :=
  ∃ directory, d.resolve (s.directory root e) = .ok directory ∧
    d.isDirectory? directory = .ok true

/-- The directory of each module, in order. -/
def LieIn (d : Disk) (s : Settings) (root : Path) (modules : List ModuleEntry)
    (directories : List Path) : Prop :=
  List.Forall₂ (fun e directory => d.resolve (s.directory root e) = .ok directory) modules
    directories

theorem LieIn.unique {d : Disk} {s : Settings} {root : Path} {modules : List ModuleEntry}
    {directories directories' : List Path} (h : LieIn d s root modules directories)
    (h' : LieIn d s root modules directories') : directories = directories' :=
  List.right_unique_forall₂' (fun _ _ _ h h' => Except.ok.inj (h.symm.trans h')) h h'

section Run

variable {w w' : World} {s : Settings} {path root : Path} {path? : Option Path}
  {seen : List (Path × String)} {entries : List ModuleEntry} {problems : List Problem}
  {warnings : List Warning}

instance (d : Disk) (s : Settings) (root : Path) : DecidablePred (IsThere d s root) := fun e =>
  match hdirectory : d.resolve (s.directory root e) with
  | .error _ => .isFalse (by simp [IsThere, hdirectory])
  | .ok directory =>
    decidable_of_iff (d.isDirectory? directory = .ok true) (by simp [IsThere, hdirectory])

/-- The warnings about modules: one for each whose directory is not there. -/
def missingWarnings (d : Disk) (s : Settings) (root : Path) (entries : List ModuleEntry) :
    List Warning :=
  (entries.filter fun e => ¬ IsThere d s root e).map fun e =>
    .noDirectory e.name (s.directoryText e)

theorem missingWarnings_cons {d : Disk} {e : ModuleEntry} :
    missingWarnings d s root (e :: entries) =
      (if IsThere d s root e then [] else [.noDirectory e.name (s.directoryText e)]) ++
        missingWarnings d s root entries := by
  rw [missingWarnings, List.filter_cons]
  split <;> rename_i h <;> simp at h <;> simp [h, missingWarnings]

/-- **What a run over the modules reports.** -/
theorem auditModules_reports
    (h : (auditModules s root seen entries).runIn w = (.ok (problems, warnings), w')) :
    ∃ directories, LieIn w.disk s root entries directories ∧
      problems =
        (collisionsFrom seen (directories.zip (entries.map (·.name)))).map .collision ∧
      warnings = missingWarnings w.disk s root entries := by
  induction entries generalizing seen problems warnings with
  | nil =>
    obtain ⟨hresult, -⟩ := Prod.mk.inj h
    obtain ⟨rfl, rfl⟩ := Prod.mk.inj (Except.ok.inj hresult)
    exact ⟨[], .nil, rfl, rfl⟩
  | cons e rest ih =>
    rw [auditModules] at h
    obtain ⟨directory, w₁, hresolve, hlook⟩ := runIn_bind_ok h
    obtain ⟨hdirectory, rfl⟩ := runIn_resolve_eq_ok hresolve
    obtain ⟨isThere, w₂, hthere, hmore⟩ := runIn_bind_ok hlook
    rw [runIn_isDirectory?] at hthere
    obtain ⟨hanswer, rfl⟩ := Prod.mk.inj hthere
    obtain ⟨⟨problems', warnings'⟩, w₃, hrest, hlast⟩ := runIn_bind_ok hmore
    obtain ⟨hresult, rfl⟩ := Prod.mk.inj hlast
    obtain ⟨rfl, rfl⟩ := Prod.mk.inj (Except.ok.inj hresult)
    obtain ⟨directories, hdirectories, rfl, rfl⟩ := ih hrest
    refine ⟨directory :: directories, .cons hdirectory hdirectories, ?_, ?_⟩
    · rw [List.map_cons, List.zip_cons_cons, collisionsFrom, List.map_append]
      cases collision? seen directory e.name <;> rfl
    · have hiff : IsThere w₁.disk s root e ↔ isThere = true := by
        simp [IsThere, hdirectory, mapError_eq_ok.mp hanswer]
      rw [missingWarnings_cons]
      simp only [hiff]

/-! ## A check of settings -/

/-- What a check says of settings whose modules lie in these directories. -/
structure IsReport (d : Disk) (path : Path) (s : Settings) (root : Path) (directories : List Path)
    (a : Audit) : Prop where
  file : a.path? = some path
  settings : a.settings? = some s
  lie : LieIn d s root s.modules directories
  valid : a.isValid = true ↔ directories.Nodup
  problems : ∃ collisions, a.problems = collisions.map .collision ∧
    collisions.length + directories.toFinset.card = s.modules.length ∧
    ReportsCollisions (directories.zip (s.modules.map (·.name))) collisions
  warnings : s.modules ≠ [] → a.warnings = missingWarnings d s root s.modules

theorem auditSettings_reports {a : Audit} (h : ((auditSettings path s).runIn w).1 = .ok a) :
    ∃ root directories, w.disk.resolve path.parent = .ok root ∧
      IsReport w.disk path s root directories a := by
  have hrun : (auditSettings path s).runIn w = (.ok a, ((auditSettings path s).runIn w).2) :=
    Prod.ext h rfl
  rw [auditSettings] at hrun
  obtain ⟨root, w₁, hroot, hthen⟩ := runIn_bind_ok hrun
  obtain ⟨hroot, rfl⟩ := runIn_resolve_eq_ok hroot
  obtain ⟨⟨problems, warnings⟩, w₂, hmodules, hlast⟩ := runIn_bind_ok hthen
  obtain ⟨hresult, -⟩ := Prod.mk.inj hlast
  obtain rfl := Except.ok.inj hresult
  obtain ⟨directories, hdirectories, rfl, rfl⟩ := auditModules_reports hmodules
  have hlength : directories.length = s.modules.length := hdirectories.length_eq.symm
  have hzip : (directories.zip (s.modules.map (·.name))).map (·.1) = directories :=
    List.map_fst_zip (by simp [hlength])
  -- every module brings a new directory or is reported
  have hcount := length_collisionsFrom [] (directories.zip (s.modules.map (·.name)))
  rw [hzip] at hcount
  have hcount : (collisionsFrom [] (directories.zip (s.modules.map (·.name)))).length +
      directories.toFinset.card = s.modules.length := by
    simpa [hlength] using hcount
  refine ⟨root, directories, hroot, rfl, rfl, hdirectories, ?_, ⟨_, rfl, hcount, ?_⟩, ?_⟩
  · have hnone : (collisionsFrom [] (directories.zip (s.modules.map (·.name)))) = [] ↔
        directories.toFinset.card = directories.length := by
      rw [← List.length_eq_zero_iff]
      omega
    rw [← Multiset.coe_nodup, ← Multiset.toFinset_card_eq_card_iff_nodup]
    simpa [Audit.isValid] using hnone
  · obtain ⟨repeats, hincreasing, hmem, hreports⟩ :=
      reportsCollisions_from [] (directories.zip (s.modules.map (·.name)))
    exact ⟨repeats, hincreasing, by simpa using hmem, hreports⟩
  · intro hne
    simp [hne]

/-- A failure of the disk. -/
def IsDiskFault (failure : Failure) : Prop :=
  ∃ fault, failure = .disk fault

theorem isDiskFault_granted {α : Type} (ask : Script (Except Fault α)) :
    FailsOnly IsDiskFault (Work.granted ask) :=
  FailsOnly.granted fun _ fault _ => ⟨fault, rfl⟩

theorem auditModules_fails (seen : List (Path × String)) (entries : List ModuleEntry) :
    FailsOnly IsDiskFault (auditModules s root seen entries) := by
  induction entries generalizing seen with
  | nil => exact .pure _
  | cons e rest ih =>
    rw [auditModules]
    refine (isDiskFault_granted _).bind fun directory => ?_
    refine (isDiskFault_granted _).bind fun isThere => ?_
    exact (ih _).bind fun reported => .pure _

theorem auditSettings_fails : FailsOnly IsDiskFault (auditSettings path s) := by
  rw [auditSettings]
  refine (isDiskFault_granted _).bind fun root => ?_
  exact (auditModules_fails [] s.modules).bind fun reported => .pure _

/-- Without links, a module can be reached if its directory is written without the null
character and is not too long. -/
theorem exists_reachable (hlinks : NoLinksBelow w.disk []) {e : ModuleEntry}
    (hnul : (s.directory root e).hasNul = false) :
    ∃ directory, w.disk.resolve (s.directory root e) = .ok directory ∧
      (IsShort directory → IsReachable w.disk s root e) := by
  obtain ⟨directory, hdirectory⟩ := resolve_of_escapes hnul (not_leadsIntoLoop hlinks)
  refine ⟨directory, hdirectory, fun hshort => ?_⟩
  have hanswer : ∃ isThere, w.disk.isDirectory? directory = .ok isThere := by
    rw [Disk.isDirectory?, probe]
    split
    · exact ⟨_, rfl⟩
    split
    · exact ⟨_, rfl⟩
    · rename_i hlong
      exact absurd hshort (tooLong_of_entryAt hlinks hlong)
    · exact ⟨_, rfl⟩
  obtain ⟨isThere, hthere⟩ := hanswer
  exact ⟨directory, isThere, hdirectory, hthere⟩

theorem exists_root (h : (loadFrom path).runIn w = (.ok s, w'))
    (hlinks : NoLinksBelow w'.disk []) : ∃ root, w'.disk.resolve path.parent = .ok root := by
  have hnul := hasNul_of_isFile (loadFrom_eq_ok h).1
  refine resolve_of_escapes ?_ (not_leadsIntoLoop hlinks)
  rw [Path.hasNul_eq_false_iff] at hnul ⊢
  exact fun x hx => hnul x (List.mem_of_mem_dropLast hx)

end Run

/-- Three modules in one directory, and one in another. -/
private def crowdedSource : String :=
  "modules:\n- name: a-b\n- name: u\n- name: aB\n- name: a_b\n"

private def crowdedSettings : Settings :=
  ⟨1, .express, Settings.usualApisDirectory, false,
    [.plain "a-b", .plain "u", .plain "aB", .plain "a_b"]⟩

private def givenPath : Path :=
  ⟨.here, [configFileName]⟩

private def crowdedWorld : World :=
  World.ofDisk <| Disk.empty ["w"]
    |>.put [configFileName, "w"] (.file (Module.bytesOf crowdedSource) newFileMode)

private def sharedDirectory : Path :=
  ⟨.root, ["w", "src", "apis", "a-b"]⟩

private def otherDirectory : Path :=
  ⟨.root, ["w", "src", "apis", "u"]⟩

/-- A module behind a link to a name that is too long. -/
private def unreachableSource : String :=
  "modules:\n- name: a\n  path: d\n"

private def unreachableSettings : Settings :=
  ⟨1, .express, Settings.usualApisDirectory, false, [⟨"a", some "d", .crud⟩]⟩

private def unreachableWorld (n : Nat) : World :=
  World.ofDisk <| Disk.empty ["w"]
    |>.put [configFileName, "w"] (.file (Module.bytesOf unreachableSource) newFileMode)
    |>.put ["d", "w"] (.link (longName n))

section Unreachable

variable {n : Nat} (hlong : nameLimit < n)
include hlong

private theorem resolve_unreachable :
    (unreachableWorld n).disk.resolve ⟨.root, ["w", "d"]⟩ = .ok ⟨.root, ["w", longName n]⟩ := by
  have hd : longName n ≠ "d" := longName_ne hlong (by decide)
  have hconfig : longName n ≠ configFileName := longName_ne hlong (by decide)
  have hw : (unreachableWorld n).disk.look ["w"] = some (.directory newDirectoryMode) := by
    rfl
  have hlink : (unreachableWorld n).disk.look ["d", "w"] = some (.link (longName n)) := rfl
  have hnone : (unreachableWorld n).disk.look [longName n, "w"] = none := by
    rw [unreachableWorld, World.ofDisk, look_put_of_ne _ _ (by simpa using hd),
      look_put_of_ne _ _ (by simpa using hconfig)]
    simp [look, Disk.empty, outward]
  have hresolution : (unreachableWorld n).disk.resolution ⟨.root, ["w", "d"]⟩ =
      .done [longName n, "w"] := by
    simp [resolution, start, resolveSteps, hw, hlink, resolveLink, ofText_longName hlong,
      stepsOf_longName hlong, Path.isAbsolute, hnone,
      longName_ne hlong (by decide : "".utf8ByteSize ≤ nameLimit),
      longName_ne hlong (by decide : ".".utf8ByteSize ≤ nameLimit),
      longName_ne hlong (by decide : "..".utf8ByteSize ≤ nameLimit)]
  rw [Disk.resolve, hresolution]
  rfl

private theorem isDirectory?_unreachable (isThere : Bool) :
    (unreachableWorld n).disk.isDirectory? ⟨.root, ["w", longName n]⟩ ≠ .ok isThere := by
  have hnul : Path.hasNul ⟨.root, ["w", longName n]⟩ = false := by
    have hname : '\x00' ∉ (longName n).toList := notMem_longName (by decide)
    simp [Path.hasNul, hname]
  have hwalk : walk (unreachableWorld n).disk .beyond linkLimit [] ["w", longName n] =
      .error .nameTooLong := by
    have hroot : (unreachableWorld n).disk.look [] = some (.directory newDirectoryMode) := rfl
    have hw : (unreachableWorld n).disk.look ["w"] = some (.directory newDirectoryMode) := rfl
    have hname : IsName "w" := ⟨by decide, by decide, by decide⟩
    rw [walk_into hroot (hname.passable (by decide) (by decide) _) hw]
    exact walk_longName hlong hw
  have hlocate : (unreachableWorld n).disk.locate .beyond ⟨.root, ["w", longName n]⟩ =
      .error .nameTooLong :=
    locate_tooLong hwalk
  rw [Disk.isDirectory?, probe, hnul, entryAt, hlocate]
  simp [Except.map]

end Unreachable

end Stencil.Config
