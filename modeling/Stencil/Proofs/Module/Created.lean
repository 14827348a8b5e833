import Stencil.Proofs.Module.Plan

/-!
# Stencil — files created in an empty directory

Where there are only directories, nothing can be read and nothing is replaced: a
file that is written there is created, or the disk refuses something. `Bare`
says that a module's directory is like this, and `Holds` which files have been
created in it since. Work that creates one file adds it to these; so does work
over a list, file by file.

Main results:

* `writePlanned_creates` — a planned file is created;
* `mapM_creates` — work over a list creates one file after the other.
-/

namespace Stencil.Module

open Stencil.Disk

/-! ## Refusals -/

/-- Work has not ended with something that the disk refused. -/
def Unrefused {α : Type} (result : Except Failure α) : Prop :=
  ∀ failure, result = .error failure → ¬ IsRefused failure

section Unrefused

variable {α β : Type} {work : Work α} {next : α → Work β} {w w' : World}
  {result : Except Failure β}

theorem unrefused_ok (a : α) : Unrefused (.ok a) := by simp [Unrefused]

theorem not_unrefused (fault : Fault) : ¬ Unrefused (.error (.disk fault) : Except Failure α) :=
  fun h => h _ rfl ⟨fault, rfl⟩

/-- If nothing is refused in the end, nothing is refused on the way. -/
theorem Unrefused.of_bind (hresult : Unrefused result)
    (hrun : (work >>= next).runIn w = (result, w')) :
    ∃ first w₁, work.runIn w = (first, w₁) ∧ Unrefused first ∧
      ∀ a, first = .ok a → (next a).runIn w₁ = (result, w') := by
  rcases hfirst : work.runIn w with ⟨failure | a, w₁⟩
  all_goals rw [Work.runIn_bind, hfirst] at hrun
  · obtain ⟨rfl, rfl⟩ := Prod.mk.inj hrun
    exact ⟨_, _, rfl, fun failure' h => hresult failure' (by simpa using h), by simp⟩
  · refine ⟨_, w₁, rfl, unrefused_ok a, fun a' ha => ?_⟩
    obtain rfl := Except.ok.inj ha
    exact hrun

/-- Work that fails only for a refusal has gone through. -/
theorem Unrefused.of_bind_fails (hresult : Unrefused result)
    (hrun : (work >>= next).runIn w = (result, w')) (hfails : Work.FailsOnly IsRefused work) :
    ∃ a w₁, work.runIn w = (.ok a, w₁) ∧ (next a).runIn w₁ = (result, w') := by
  obtain ⟨first, w₁, hfirst, hunrefused, hnext⟩ := hresult.of_bind hrun
  cases first with
  | ok a => exact ⟨a, w₁, hfirst, hnext a rfl⟩
  | error failure => exact (hunrefused failure rfl (hfails w failure w₁ hfirst)).elim

end Unrefused

/-! ## Empty directories -/

/-- The module's directory is there, and there is no file and no link in it. -/
structure Bare (r : Request) (top : Place) (w : World) : Prop where
  base : w.disk.locate .beyond r.modulePath = .ok top
  directory : ∃ mode, w.disk.look top = some (.directory mode)
  only : ∀ q, top <:+ q →
    w.disk.look q = none ∨ ∃ mode, w.disk.look q = some (.directory mode)

theorem Bare.enclosed {r : Request} {top : Place} {w : World} (h : Bare r top w) :
    Enclosed r top w := by
  refine ⟨h.base, h.directory, fun q target hq hlink => ?_, fun q hq hlog => ?_⟩
  · rcases h.only q hq with hnone | ⟨mode, hmode⟩
    · simp [hnone] at hlink
    · simp [hmode] at hlink
  · obtain ⟨-, bytes, mode, hfile⟩ := hlog
    rcases h.only q hq with hnone | ⟨mode', hmode⟩
    · simp [hnone] at hfile
    · simp [hmode] at hfile

/-- Since `w₀`, these files have been created, and perhaps directories; nothing
else has changed but the log file. -/
structure Holds (r : Request) (top : Place) (w₀ w : World) (files : List WrittenFile) : Prop where
  plan : ∀ f ∈ files, Plannable w₀.disk r.modulePath top f.path
  reached : Reached
    (fun q => (∃ f ∈ files, q = placeBelow r.modulePath top f.path) ∨ w₀.IsLog q) w₀ w
  read : ∀ f ∈ files, w.disk.read f.path = .ok (bytesOf f.content)

/-- A file is to be created where none has been. -/
structure Awaits (r : Request) (top : Place) (w₀ : World) (files : List WrittenFile)
    (path : Path) : Prop where
  plan : Plannable w₀.disk r.modulePath top path
  fresh : ∀ f ∈ files, placeBelow r.modulePath top f.path ≠ placeBelow r.modulePath top path

namespace Holds

variable {r : Request} {top : Place} {w₀ w w' : World} {files : List WrittenFile} {path : Path}

theorem start (r : Request) (top : Place) (w : World) : Holds r top w w [] :=
  ⟨by simp, ⟨.refl _ _, by simpa using fun q hq => hq.2, fun _ hq => hq⟩, by simp⟩

theorem enclosed (h : Holds r top w₀ w files) (hbare : Bare r top w₀) : Enclosed r top w := by
  obtain ⟨mode, hdirectory⟩ := hbare.directory
  refine ⟨locate_kept h.reached.grown.kept hbare.base,
    ⟨mode, h.reached.grown.directory hdirectory⟩, fun q target hq hlink => ?_,
    fun q hq hlog => hbare.enclosed.unlogged q hq (h.reached.isLog q hlog)⟩
  exact hbare.enclosed.noLinks q target hq (h.reached.grown.link_iff.mp hlink)

theorem logged (h : Holds r top w₀ w files) (hbare : Bare r top w₀) (hlog : World.Logged w w') :
    Holds r top w₀ w' files := by
  refine ⟨h.plan, (h.reached.union (.of_logged hlog)).extend ?_ ?_, fun f hf => ?_⟩
  · exact fun q hq => hq.elim id fun hq => .inr (h.reached.isLog q hq)
  · exact fun q hq hq' => (hq' (.inl hq)).elim
  · rw [hlog.read_eq, h.read f hf]
    intro q hq hlogged
    obtain rfl := ((h.plan f hf).grown h.reached.grown).place_eq (by simp) hq
    exact hbare.enclosed.unlogged _ (List.suffix_append _ _) (h.reached.isLog _ hlogged)

/-- Where a file is to be created is none yet. -/
theorem not_file (h : Holds r top w₀ w files) (hbare : Bare r top w₀)
    (hpath : Awaits r top w₀ files path) {e : Entry} (hentry : w.disk.entryAt path = .ok e) :
    ∃ mode, e = .directory mode := by
  have hlook := (hpath.plan.grown h.reached.grown).look_of_entryAt hentry
  have hplace : ¬ ((∃ f ∈ files, placeBelow r.modulePath top path =
      placeBelow r.modulePath top f.path) ∨ w₀.IsLog (placeBelow r.modulePath top path)) := by
    rintro (⟨f, hf, hsame⟩ | hlog)
    · exact hpath.fresh f hf hsame.symm
    · exact hbare.enclosed.unlogged _ (List.suffix_append _ _) hlog
  have honly := hbare.only (placeBelow r.modulePath top path) (List.suffix_append _ _)
  rcases h.reached.grown.outside _ hplace with heq | ⟨-, mode, hmode⟩
  · rw [← heq, hlook] at honly
    simpa using honly
  · rw [hlook] at hmode
    exact ⟨mode, Option.some.inj hmode⟩

theorem read_refused (h : Holds r top w₀ w files) (hbare : Bare r top w₀)
    (hpath : Awaits r top w₀ files path) : ∃ fault, w.disk.read path = .error fault := by
  cases hread : w.disk.read path with
  | error fault => exact ⟨fault, rfl⟩
  | ok bytes =>
    obtain ⟨-, mode, hentry⟩ := read_eq_ok_iff.mp hread
    obtain ⟨mode', hmode⟩ := h.not_file hbare hpath hentry
    simp at hmode

/-- **A file that is written has been created.** -/
theorem written (h : Holds r top w₀ w files) (hbare : Bare r top w₀) {f : WrittenFile}
    (hf : Awaits r top w₀ files f.path)
    (hwrite : (atomicWrite f.path f.content).runIn w = (.ok (), w')) :
    Holds r top w₀ w' (files ++ [f]) ∧ ∀ e, w.disk.entryAt f.path ≠ .ok e := by
  have hplan := hf.plan.grown h.reached.grown
  obtain ⟨hreached, hread⟩ := hplan.reached_of_atomicWrite hwrite
  refine ⟨⟨?_, (h.reached.union hreached).extend ?_ ?_, ?_⟩, fun e hentry => ?_⟩
  · intro g hg
    rcases List.mem_append.mp hg with hg | hg
    · exact h.plan g hg
    · rw [List.mem_singleton.mp hg]
      exact hf.plan
  · rintro q ((⟨g, hg, rfl⟩ | hq) | rfl)
    · exact .inl ⟨g, List.mem_append_left _ hg, rfl⟩
    · exact .inr hq
    · exact .inl ⟨f, by simp, rfl⟩
  · rintro q (⟨g, hg, rfl⟩ | hq) hq'
    · rcases List.mem_append.mp hg with hg | hg
      · exact (hq' (.inl (.inl ⟨g, hg, rfl⟩))).elim
      · obtain rfl := List.mem_singleton.mp hg
        exact (hq' (.inr rfl)).elim
    · exact (hq' (.inl (.inr hq))).elim
  · intro g hg
    rcases List.mem_append.mp hg with hg | hg
    · exact ((h.plan g hg).grown h.reached.grown).read_grown hreached.grown (hf.fresh g hg)
        (h.read g hg)
    · rw [List.mem_singleton.mp hg, hread]
  · -- a directory in its place would not have been replaced
    obtain ⟨mode, rfl⟩ := h.not_file hbare hf hentry
    have hlook := hplan.look_of_entryAt hentry
    obtain ⟨_, p, w₁, hstored⟩ := atomicWrite_stored (fun _ => hplan.endsInName) hwrite
    have hwide := hstored.widened.disk
    obtain rfl := (hplan.grown hwide).place_eq (by simp) hstored.place
    exact hstored.directory mode (hwide.directory hlook)

end Holds

/-! ## Work that creates files -/

/-- Work creates a file where none is, unless the disk refuses something. -/
def Creates (r : Request) (top : Place) (w₀ : World) (work : Work WrittenFile)
    (f : WrittenFile) : Prop :=
  ∀ ⦃files : List WrittenFile⦄ ⦃w : World⦄ ⦃result : Except Failure WrittenFile⦄ ⦃w' : World⦄,
    Holds r top w₀ w files → Awaits r top w₀ files f.path → work.runIn w = (result, w') →
      Unrefused result → result = .ok f ∧ Holds r top w₀ w' (files ++ [f])

section Creating

variable {r : Request} {top : Place} {w₀ : World}

/-- **Work over a list** creates one file after the other. -/
theorem mapM_creates {α : Type} {step : α → Work WrittenFile} {report : α → WrittenFile}
    {as : List α} (hcreates : ∀ a ∈ as, Creates r top w₀ (step a) (report a))
    (hplan : ∀ a ∈ as, Plannable w₀.disk r.modulePath top (report a).path)
    (hdistinct : as.Pairwise fun a b =>
      placeBelow r.modulePath top (report a).path ≠ placeBelow r.modulePath top (report b).path)
    {files : List WrittenFile} {w w' : World} {result : Except Failure (List WrittenFile)}
    (h : Holds r top w₀ w files)
    (hfresh : ∀ f ∈ files, ∀ a ∈ as,
      placeBelow r.modulePath top f.path ≠ placeBelow r.modulePath top (report a).path)
    (hrun : (as.mapM step).runIn w = (result, w')) (hresult : Unrefused result) :
    result = .ok (as.map report) ∧ Holds r top w₀ w' (files ++ as.map report) := by
  induction as generalizing files w w' result with
  | nil =>
    obtain ⟨rfl, rfl⟩ := Prod.mk.inj hrun
    exact ⟨rfl, by simpa using h⟩
  | cons a as ih =>
    obtain ⟨hne, hdistinct⟩ := List.pairwise_cons.mp hdistinct
    rw [List.mapM_cons] at hrun
    obtain ⟨first, w₁, hfirst, hunrefused, hnext⟩ := hresult.of_bind hrun
    obtain ⟨rfl, hholds⟩ := hcreates a (by simp) h
      ⟨hplan a (by simp), fun f hf => hfresh f hf a (by simp)⟩ hfirst hunrefused
    obtain ⟨rest, w₂, hrest, hunrefused, hnext⟩ := hresult.of_bind (hnext _ rfl)
    -- the first file counts as one of those that are there
    have hfreshRest : ∀ f ∈ files ++ [report a], ∀ b ∈ as,
        placeBelow r.modulePath top f.path ≠ placeBelow r.modulePath top (report b).path := by
      intro f hf b hb
      rcases List.mem_append.mp hf with hf | hf
      · exact hfresh f hf b (by simp [hb])
      · rw [List.mem_singleton.mp hf]
        exact hne b hb
    obtain ⟨rfl, hall⟩ := ih (fun b hb => hcreates b (by simp [hb]))
      (fun b hb => hplan b (by simp [hb])) hdistinct hholds hfreshRest hrest hunrefused
    obtain ⟨rfl, rfl⟩ := Prod.mk.inj (hnext _ rfl)
    exact ⟨rfl, by simpa using hall⟩

/-- What is composed where no file is. -/
theorem Holds.composeOn_eq {w : World} {files : List WrittenFile} {path : Path}
    (h : Holds r top w₀ w files) (hbare : Bare r top w₀) (hpath : Awaits r top w₀ files path)
    (new : String) (isAppend : Bool) :
    composeOn w.disk path new isAppend = .ok ⟨new, .created⟩ ∨
      ∃ fault, composeOn w.disk path new isAppend = .error (.disk fault) := by
  rw [composeOn]
  obtain ⟨fault', hread⟩ := h.read_refused hbare hpath
  cases w.disk.exists? path with
  | error fault => exact .inr ⟨fault, rfl⟩
  | ok isThere =>
    cases isThere with
    | false => exact .inl rfl
    | true => exact .inr ⟨fault', by simp only [hread]⟩

/-- **A planned file is created.** -/
theorem writePlanned_creates (hbare : Bare r top w₀) (hdry : r.isDryRun = false)
    (file : PlannedFile) :
    Creates r top w₀ (writePlanned r file) (file.report ⟨file.content, .created⟩) := by
  intro files w result w' h hawaits hrun hresult
  have hfile : Awaits r top w₀ files file.path := hawaits
  rw [writePlanned, hdry] at hrun
  obtain ⟨first, w₁, hwrite, hunrefused, hnext⟩ := hresult.of_bind hrun
  rcases h.composeOn_eq hbare hfile file.content r.isAppend with hcompose | ⟨fault, hcompose⟩
  · rw [writeGenerated_of_changed hcompose (by simp)] at hwrite
    obtain ⟨_, w₂, hatomic, hwrite⟩ :=
      hunrefused.of_bind_fails hwrite (atomicWrite_fails file.path file.content)
    obtain ⟨rfl, rfl⟩ := Prod.mk.inj hwrite
    obtain ⟨rfl, rfl⟩ := Prod.mk.inj (hnext _ rfl)
    exact ⟨rfl, (h.written hbare hfile hatomic).1.logged hbare (.log w₂ _)⟩
  · obtain ⟨w₂, hfailed, -⟩ := writeGenerated_of_error hcompose
    obtain ⟨rfl, -⟩ := Prod.mk.inj (hfailed.symm.trans hwrite)
    exact (not_unrefused fault hunrefused).elim

end Creating

end Stencil.Module
