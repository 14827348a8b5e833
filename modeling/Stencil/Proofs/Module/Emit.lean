import Stencil.Module.Generate
import Stencil.Proofs.Disk.Below
import Stencil.Proofs.Module.Atomic
import Stencil.Proofs.Text.Utf8

/-!
# Stencil — what writing one file after the other does

The second phase of generation writes the planned files in order and stops at
the first that fails. `Reached S` says what it has come to: files at the places
of `S`, perhaps new directories, and nothing else. What a file is to hold does
not depend on files written elsewhere, and so every file is composed as it would
have been on the first disk.

Main results:

* `composeOn_back` — a file is composed as on the first disk;
* `writePlanned_ok` — what writing one file does;
* `emit_runIn` — what writing some files does.
-/

namespace Stencil.Module

open Stencil.Disk Stencil.Text

/-! ## Composing later -/

/-- **What a file is to hold** is what it was to hold before files elsewhere were
written. -/
theorem composeOn_back {d d' : Disk} {S : Place → Prop} {base : Path} {top : Place}
    {names : List String} (h : Below d base top names) (htree : IsTree d)
    (hgrown : Grown S d d') (hplace : ¬ S (names.reverse ++ top)) {new : String} {isAppend : Bool}
    (hfault : ∀ fault,
      composeOn d' (pathBelow base names) new isAppend ≠ .error (.disk fault)) :
    composeOn d (pathBelow base names) new isAppend =
      composeOn d' (pathBelow base names) new isAppend := by
  -- what is seen later is looked for on the first disk, file by file
  cases hthere : d'.exists? (pathBelow base names) with
  | error fault =>
    rw [composeOn, hthere] at hfault
    exact (hfault fault rfl).elim
  | ok isThere =>
    cases isThere with
    | false => rw [composeOn, composeOn, hthere, h.exists_back hgrown hplace hthere]
    | true =>
      cases hread : d'.read (pathBelow base names) with
      | error fault =>
        rw [composeOn, hthere] at hfault
        simp only [hread] at hfault
        exact (hfault fault rfl).elim
      | ok bytes =>
        obtain ⟨hnul, mode, hfile⟩ := read_eq_ok_iff.mp hread
        have hfile' := h.entryAt_back htree hgrown hplace hfile
        have hread' := read_eq_ok_iff.mpr ⟨hnul, mode, hfile'⟩
        rw [composeOn, composeOn, hthere, hread, exists_of_entryAt hnul hfile', hread']

/-- A file that is unchanged holds its new text. -/
theorem bytes_of_replaceIn {bytes : List UInt8} {new : String}
    (haction : (replaceIn bytes new).action = .unchanged) :
    bytes = bytesOf (replaceIn bytes new).content := by
  by_cases heq : bytes = bytesOf new
  · exact heq
  · simp [replaceIn, heq] at haction

/-- A file whose region is unchanged holds the merged text. -/
theorem bytes_of_mergeInto {path : Path} {bytes : List UInt8} {new : String} {composed : Composed}
    (h : mergeInto path bytes new = .ok composed) (haction : composed.action = .unchanged) :
    bytes = bytesOf composed.content := by
  rw [mergeInto] at h
  split at h
  · simp at h
  · rename_i existing hdecode
    split at h
    · simp at h
    · simp at h
    · rename_i merged hmerged
      obtain rfl := Except.ok.inj h
      -- the text is as it was, and so are its bytes
      have hsame : merged = existing := by
        by_cases heq : merged = existing
        · exact heq
        · simp [heq] at haction
      rw [bytesOf, String.toList_ofList, hsame, Utf8.encode_of_decode hdecode]

/-- A file that is to hold what it holds does so. -/
theorem read_of_unchanged {d : Disk} {path : Path} {new : String} {isAppend : Bool}
    {composed : Composed} (h : composeOn d path new isAppend = .ok composed)
    (haction : composed.action = .unchanged) :
    d.read path = .ok (bytesOf composed.content) := by
  rw [composeOn] at h
  split at h
  · simp at h
  · obtain rfl := Except.ok.inj h
    simp at haction
  · cases hread : d.read path with
    | error fault => simp [hread] at h
    | ok bytes =>
      simp only [hread] at h
      split at h
      · exact congrArg Except.ok (bytes_of_mergeInto h haction)
      · obtain rfl := Except.ok.inj h
        exact congrArg Except.ok (bytes_of_replaceIn haction)

/-! ## Worlds in which files have been written -/

/-- There are files at the places of `S`, and there may be new directories;
nothing else has changed. The log file counts as one of the places. -/
structure Reached (S : Place → Prop) (w w' : World) : Prop where
  grown : Grown S w.disk w'.disk
  files : ∀ q, S q → ∃ bytes mode, w'.disk.look q = some (.file bytes mode)
  isLog : ∀ q, w'.IsLog q → w.IsLog q

namespace Reached

variable {S T : Place → Prop} {w w' w'' : World}

theorem of_logged (h : World.Logged w w') : Reached w.IsLog w w' :=
  ⟨h.grown, h.self, fun _ hq => h.isLog_iff.mp hq⟩

/-- **Files written at some places and then at others.** -/
theorem union (h : Reached S w w') (h' : Reached T w' w'') :
    Reached (fun q => S q ∨ T q) w w'' := by
  have hfiles : ∀ q, S q ∨ T q → ∃ bytes mode, w''.disk.look q = some (.file bytes mode) := by
    intro q hq
    by_cases hT : T q
    · exact h'.files q hT
    · -- a file that is not written again stays
      obtain ⟨bytes, mode, hfile⟩ := h.files q (hq.resolve_right hT)
      exact ⟨bytes, mode, h'.grown.look_eq_some hT hfile⟩
  refine ⟨h.grown.union h'.grown fun q hq => ?_, hfiles, fun q hq => h.isLog q (h'.isLog q hq)⟩
  obtain ⟨bytes, mode, hfile⟩ := hfiles q hq
  rw [hfile]
  trivial

/-- Files that nothing was written to may count as written. -/
theorem extend (h : Reached S w w') (hST : ∀ q, S q → T q)
    (hfile : ∀ q, T q → ¬ S q → ∃ bytes mode, w.disk.look q = some (.file bytes mode)) :
    Reached T w w' := by
  -- no change was made to the files that are added
  have hsame : ∀ q, T q → ¬ S q → w'.disk.look q = w.disk.look q := by
    intro q hT hS
    obtain ⟨bytes, mode, hlook⟩ := hfile q hT hS
    rw [h.grown.look_eq_some hS hlook, hlook]
  refine ⟨h.grown.mono hST hsame, fun q hT => ?_, h.isLog⟩
  by_cases hS : S q
  · exact h.files q hS
  · rw [hsame q hT hS]
    exact hfile q hT hS

/-- A record of what was done counts for the log file of the first world. -/
theorem logged (h : Reached S w w') (hlogged : World.Logged w' w'') :
    Reached (fun q => S q ∨ w.IsLog q) w w'' := by
  refine (h.union (.of_logged hlogged)).extend (fun q hq => hq.imp_right (h.isLog q)) ?_
  rintro q (hq | hq) hq'
  · exact (hq' (.inl hq)).elim
  · exact hq.2

/-- One write. -/
theorem of_written {w₁ : World} {p : Place} {bytes : List UInt8} (hwide : Widened w w₁)
    (hleaf : IsLeaf (w₁.disk.look p)) (hwritten : Written p bytes w₁ w') :
    Reached (· = p) w w' := by
  obtain ⟨⟨mode, hreplaced⟩, hlog⟩ := hwritten
  have hself := hreplaced.self
  refine ⟨?_, ?_, ?_⟩
  · -- the new directories and the file, taken together
    have hboth := hwide.disk.union (hreplaced.grown hleaf) (by
      rintro q (hq | rfl)
      · exact hq.elim
      · rw [hself]
        trivial)
    simpa using hboth
  · rintro q rfl
    exact ⟨bytes, mode, hself⟩
  · rintro q ⟨hplace, b, m, hfile⟩
    -- the log file was not in the place of the written one, or is no longer open
    rw [hlog] at hplace
    split at hplace
    · simp at hplace
    · rename_i hne
      have hqp : q ≠ p := by
        rintro rfl
        exact hne hplace
      rw [hreplaced.other q hqp] at hfile
      rw [hwide.world] at hplace
      exact ⟨hplace, b, m, hwide.disk.file_back id hfile⟩

end Reached

/-! ## One file -/

/-- The names of a path beyond those of another one. -/
def namesBeyond (base path : Path) : List String :=
  path.parts.drop base.parts.length

/-- The place of a file below a directory. -/
def placeBelow (base : Path) (top : Place) (path : Path) : Place :=
  (namesBeyond base path).reverse ++ top

/-- The path is one of plain names below a directory without links. -/
structure Plannable (d : Disk) (base : Path) (top : Place) (path : Path) : Prop where
  below : Below d base top (namesBeyond base path)
  path : path = pathBelow base (namesBeyond base path)

theorem Plannable.grown {d d' : Disk} {base path : Path} {top : Place} {S : Place → Prop}
    (h : Plannable d base top path) (hgrown : Grown S d d') : Plannable d' base top path :=
  ⟨h.below.grown hgrown, h.path⟩

theorem Plannable.place_eq {d : Disk} {base path : Path} {top p : Place} {arrival : Arrival}
    (h : Plannable d base top path) (harrival : arrival ≠ .making)
    (hp : d.locate arrival path = .ok p) : p = placeBelow base top path := by
  rw [h.path] at hp
  exact h.below.place_eq harrival hp

theorem Plannable.endsInName {d : Disk} {base path : Path} {top : Place}
    (h : Plannable d base top path) : EndsInName path := by
  obtain ⟨names, x, hnames⟩ : ∃ names x, namesBeyond base path = names ++ [x] := by
    rcases List.eq_nil_or_concat (namesBeyond base path) with hnil | ⟨names, x, hnames⟩
    · exact (h.below.nonempty hnil).elim
    · exact ⟨names, x, by rw [hnames, List.concat_eq_append]⟩
  -- the last name beyond the base is the last name
  have hchild : path = (pathBelow base names).child x := by
    rw [h.path, hnames, pathBelow, pathBelow, Path.child, List.append_assoc]
  rw [hchild]
  exact endsInName_child (h.below.plain x (by rw [hnames]; simp))

/-- What lies at the place of a path that leads to a file. -/
theorem Plannable.look_of_entryAt {d : Disk} {base path : Path} {top : Place} {e : Entry}
    (h : Plannable d base top path) (hentry : d.entryAt path = .ok e) :
    d.look (placeBelow base top path) = some e := by
  obtain ⟨p, hp, hlook⟩ := entryAt_eq_ok_iff.mp hentry
  rw [← h.place_eq (by simp) hp, hlook]

/-- A file is still read when files elsewhere have been written. -/
theorem Plannable.read_grown {d d' : Disk} {base path : Path} {top : Place} {S : Place → Prop}
    (h : Plannable d base top path) (hgrown : Grown S d d')
    (hplace : ¬ S (placeBelow base top path))
    {bytes : List UInt8} (hread : d.read path = .ok bytes) : d'.read path = .ok bytes := by
  obtain ⟨hnul, mode, hentry⟩ := read_eq_ok_iff.mp hread
  obtain ⟨p, hp, hlook⟩ := entryAt_eq_ok_iff.mp hentry
  obtain rfl := h.place_eq (by simp) hp
  have hentry' := entryAt_eq_ok_iff.mpr
    ⟨_, locate_kept hgrown.kept hp, hgrown.look_eq_some hplace hlook⟩
  exact read_eq_ok_iff.mpr ⟨hnul, mode, hentry'⟩

/-- A file that is read was read before files elsewhere were written. -/
theorem Plannable.read_back {d d' : Disk} {base path : Path} {top : Place} {S : Place → Prop}
    (h : Plannable d base top path) (htree : IsTree d) (hgrown : Grown S d d')
    (hplace : ¬ S (placeBelow base top path)) {bytes : List UInt8}
    (hread : d'.read path = .ok bytes) : d.read path = .ok bytes := by
  obtain ⟨hnul, mode, hentry⟩ := read_eq_ok_iff.mp hread
  refine read_eq_ok_iff.mpr ⟨hnul, mode, ?_⟩
  rw [h.path] at hentry ⊢
  exact h.below.entryAt_back htree hgrown hplace hentry

section OneFile

variable {w w' : World} {base path : Path} {top : Place} {new : String} {isAppend : Bool}
  {composed composed' : Composed}

/-- A planned file that holds already what it is to hold: at most the log changes. -/
theorem Plannable.reached_of_unchanged (h : Plannable w.disk base top path)
    (hunlogged : ¬ w.IsLog (placeBelow base top path))
    (hcompose : composeOn w.disk path new isAppend = .ok composed)
    (haction : composed.action = .unchanged)
    (hwrite : (writeGenerated path new isAppend false).runIn w = (.ok composed', w')) :
    Reached (fun q => q = placeBelow base top path ∨ w.IsLog q) w w' ∧
      w'.disk.read path = .ok (bytesOf composed.content) := by
  obtain ⟨w₁, hdone, hlogged⟩ := writeGenerated_of_unchanged hcompose haction
  obtain rfl : w₁ = w' := (Prod.mk.inj (hdone.symm.trans hwrite)).2
  have hread := read_of_unchanged hcompose haction
  obtain ⟨-, mode, hentry⟩ := read_eq_ok_iff.mp hread
  have hlook := h.look_of_entryAt hentry
  refine ⟨(Reached.of_logged hlogged).extend (fun q hq => .inr hq) ?_, ?_⟩
  · rintro q (rfl | hq) hq'
    · exact ⟨_, mode, hlook⟩
    · exact (hq' hq).elim
  · rw [hlogged.read_eq fun q hq => h.place_eq (by simp) hq ▸ hunlogged, hread]

/-- A file that is written is there, and nothing else has changed. -/
theorem Plannable.reached_of_atomicWrite (h : Plannable w.disk base top path) {content : String}
    (hwrite : (atomicWrite path content).runIn w = (.ok (), w')) :
    Reached (· = placeBelow base top path) w w' ∧ w'.disk.read path = .ok (bytesOf content) := by
  obtain ⟨mode, p, w₁, hstored⟩ := atomicWrite_stored (fun _ => h.endsInName) hwrite
  have hwidePlan : Plannable w₁.disk base top path := h.grown hstored.widened.disk
  obtain rfl := hwidePlan.place_eq (by simp) hstored.place
  -- there are no links below, and a directory would not have been replaced
  have hleaf : IsLeaf (w₁.disk.look (placeBelow base top path)) :=
    hwidePlan.below.noLinks.isLeaf (List.suffix_append _ _) hstored.directory
  exact ⟨.of_written hstored.widened hleaf hstored.written, hstored.read (isEnd_of_leaf hleaf)⟩

/-- A planned file that is written: it is there, and at most the log changes
besides. -/
theorem Plannable.reached_of_changed (h : Plannable w.disk base top path)
    (hunlogged : ¬ w.IsLog (placeBelow base top path))
    (hcompose : composeOn w.disk path new isAppend = .ok composed)
    (haction : composed.action ≠ .unchanged)
    (hwrite : (writeGenerated path new isAppend false).runIn w = (.ok composed', w')) :
    Reached (fun q => q = placeBelow base top path ∨ w.IsLog q) w w' ∧
      w'.disk.read path = .ok (bytesOf composed.content) := by
  rw [writeGenerated_of_changed hcompose haction] at hwrite
  obtain ⟨_, w₁, hatomic, hwrite⟩ := Work.runIn_bind_ok hwrite
  obtain ⟨hreached, hread⟩ := h.reached_of_atomicWrite hatomic
  -- the record of the write comes last
  have hlogged : World.Logged w₁ w' := (Prod.mk.inj hwrite).2 ▸ .log w₁ _
  refine ⟨hreached.logged hlogged, ?_⟩
  have hwrittenPlan := h.grown hreached.grown
  have hunloggedThen : ¬ w₁.IsLog (placeBelow base top path) := fun hlog =>
    hunlogged (hreached.isLog _ hlog)
  rw [hlogged.read_eq fun q hq => hwrittenPlan.place_eq (by simp) hq ▸ hunloggedThen, hread]

end OneFile

/-- What is reported of a planned file that has been composed. -/
def PlannedFile.report (f : PlannedFile) (composed : Composed) : WrittenFile :=
  ⟨f.path, composed.content, f.operation, f.role, composed.action⟩

/-- What is reported of a planned file, by the disk alone. -/
def writtenOn (d : Disk) (r : Request) (f : PlannedFile) : Except Failure WrittenFile :=
  (composeOn d f.path f.content r.isAppend).map f.report

/-- **Writing one planned file**: it is composed and reported as on the first
disk, and holds that; nothing else has changed. -/
theorem writePlanned_ok {r : Request} {file : PlannedFile} {written : WrittenFile}
    {w₀ w w' : World} {base : Path} {top : Place} {S : Place → Prop}
    (hdry : r.isDryRun = false) (hplan : Plannable w₀.disk base top file.path)
    (htree : IsTree w₀.disk) (h₀ : Reached S w₀ w) (hfresh : ¬ S (placeBelow base top file.path))
    (hunlogged : ¬ w₀.IsLog (placeBelow base top file.path))
    (hrun : (writePlanned r file).runIn w = (.ok written, w')) :
    ∃ composed, composeOn w₀.disk file.path file.content r.isAppend = .ok composed ∧
      written = file.report composed ∧
      Reached (fun q => q = placeBelow base top file.path ∨ w.IsLog q) w w' ∧
      w'.disk.read file.path = .ok (bytesOf composed.content) := by
  have hplanNow : Plannable w.disk base top file.path := hplan.grown h₀.grown
  have hunloggedNow : ¬ w.IsLog (placeBelow base top file.path) := fun h =>
    hunlogged (h₀.isLog _ h)
  rw [writePlanned, hdry] at hrun
  obtain ⟨composed, w₁, hwrite, hrun⟩ := Work.runIn_bind_ok hrun
  obtain ⟨hreport, rfl⟩ := Prod.mk.inj hrun
  obtain rfl : file.report composed = written := Except.ok.inj hreport
  have hcompose := writeGenerated_eq_ok hwrite
  have hfirst : composeOn w₀.disk file.path file.content r.isAppend = .ok composed := by
    rw [← hcompose]
    rw [hplan.path] at hcompose ⊢
    exact composeOn_back hplan.below htree h₀.grown hfresh (by simp [hcompose])
  refine ⟨composed, hfirst, rfl, ?_⟩
  by_cases haction : composed.action = .unchanged
  · exact hplanNow.reached_of_unchanged hunloggedNow hcompose haction hwrite
  · exact hplanNow.reached_of_changed hunloggedNow hcompose haction hwrite

/-! ## Some files -/

/-- The files lie at different places below a directory. -/
structure AllPlannable (w : World) (base : Path) (top : Place) (files : List PlannedFile) :
    Prop where
  each : ∀ f ∈ files, Plannable w.disk base top f.path
  unlogged : ∀ f ∈ files, ¬ w.IsLog (placeBelow base top f.path)
  distinct : files.Pairwise fun f g => placeBelow base top f.path ≠ placeBelow base top g.path

/-- **Writing some files** that succeeds: all of them are composed and reported as
on the first disk and hold that; nothing else has changed. -/
theorem emit_runIn {r : Request} {files : List PlannedFile} {written : List WrittenFile}
    {w₀ w w' : World} {base : Path} {top : Place} {S : Place → Prop}
    (hdry : r.isDryRun = false) (hplan : AllPlannable w₀ base top files) (htree : IsTree w₀.disk)
    (h₀ : Reached S w₀ w) (hfresh : ∀ f ∈ files, ¬ S (placeBelow base top f.path))
    (hrun : (files.mapM (writePlanned r)).runIn w = (.ok written, w')) :
    Reached (fun q => (∃ f ∈ files, q = placeBelow base top f.path) ∨ w.IsLog q) w w' ∧
      files.mapM (writtenOn w₀.disk r) = .ok written ∧
      ∀ f ∈ files, ∃ composed, composeOn w₀.disk f.path f.content r.isAppend = .ok composed ∧
        w'.disk.read f.path = .ok (bytesOf composed.content) := by
  induction files generalizing w S written with
  | nil =>
    obtain ⟨hnil, rfl⟩ := Prod.mk.inj hrun
    refine ⟨⟨.refl _ _, ?_, fun _ hq => hq⟩, hnil, by simp⟩
    rintro q (⟨f, hf, -⟩ | hq)
    · simp at hf
    · exact hq.2
  | cons f files ih =>
    obtain ⟨heach, hunlogged, hdistinct⟩ := hplan
    obtain ⟨hne, hdistinct⟩ := List.pairwise_cons.mp hdistinct
    obtain ⟨first, rest, w₁, hfirst, hrest, rfl⟩ := Work.mapM_runIn_cons_ok hrun
    obtain ⟨composed, hcompose, rfl, hreached, hread⟩ := writePlanned_ok hdry
      (heach f (by simp)) htree h₀ (hfresh f (by simp)) (hunlogged f (by simp)) hfirst
    -- the rest starts in a world where `f` has been written as well
    have hplanRest : AllPlannable w₀ base top files :=
      ⟨fun g hg => heach g (by simp [hg]), fun g hg => hunlogged g (by simp [hg]), hdistinct⟩
    have hfreshRest : ∀ g ∈ files, ¬ (S (placeBelow base top g.path) ∨
        (placeBelow base top g.path = placeBelow base top f.path ∨
          w.IsLog (placeBelow base top g.path))) := by
      rintro g hg (hS | hsame | hlog)
      · exact hfresh g (by simp [hg]) hS
      · exact hne g hg hsame.symm
      · exact hunlogged g (by simp [hg]) (h₀.isLog _ hlog)
    obtain ⟨hreachedRest, hwrittenRest, hreadRest⟩ :=
      ih hplanRest (h₀.union hreached) hfreshRest hrest
    -- the places written by both, and the log, which is the one of the start
    refine ⟨(hreached.union hreachedRest).extend ?_ ?_, ?_, ?_⟩
    · rintro q ((rfl | hq) | ⟨g, hg, rfl⟩ | hq)
      · exact .inl ⟨f, by simp, rfl⟩
      · exact .inr hq
      · exact .inl ⟨g, by simp [hg], rfl⟩
      · exact .inr (hreached.isLog q hq)
    · rintro q (⟨g, hg, rfl⟩ | hq) hq'
      · rcases List.mem_cons.mp hg with rfl | hg
        · exact (hq' (.inl (.inl rfl))).elim
        · exact (hq' (.inr (.inl ⟨g, hg, rfl⟩))).elim
      · exact (hq' (.inl (.inr hq))).elim
    · rw [List.mapM_cons, writtenOn, hcompose, hwrittenRest]
      rfl
    · intro g hg
      rcases List.mem_cons.mp hg with rfl | hg
      · refine ⟨composed, hcompose, ?_⟩
        have hplanNow : Plannable w₁.disk base top g.path :=
          (heach g (by simp)).grown (h₀.union hreached).grown
        -- the files after `f` lie elsewhere, so `f` still holds what was written
        refine hplanNow.read_grown hreachedRest.grown ?_ hread
        rintro (⟨g', hg', hsame⟩ | hlog)
        · exact hne g' hg' hsame
        · exact hunlogged g (by simp) (h₀.isLog _ (hreached.isLog _ hlog))
      · exact hreadRest g hg

end Stencil.Module
