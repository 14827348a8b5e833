import Stencil.Proofs.Module.Atomic
import Stencil.Proofs.Module.Emit

/-!
# Stencil — what writing one generated file promises

A call that returns has put the text where its path leads, and says what that meant
for the file: it is new, it held the same bytes already, or it has changed. Old and
new bytes are compared without being read as text, except in append mode, where two
texts are the same if their bytes are. A call that raises has left the disk alone if
the file could not be composed, and directories on the way of the path if the write
was refused.

Log records are no part of this. They go to the log file, if that is on the disk.

Main results:

* `composeOn_cases` — what is said of a file that is composed;
* `Stored.placed` — what a write leaves on a disk without links;
* `writeGenerated_contract` — what a call promises that returns, and one that raises.
-/

namespace Stencil.Module

open Stencil.Disk Stencil.Text

variable {d d' : Disk} {path : Path} {new : String} {isAppend : Bool} {composed : Composed}
  {w w' : World}

/-! ## What is composed -/

/-- The action for a file that is there and is to hold something else. -/
def changeAction (isAppend : Bool) : Action :=
  if isAppend then .merged else .replaced

/-- **What a merge says of a file**: it is as it was, or its bytes change. -/
theorem action_of_mergeInto {bytes : List UInt8} (h : mergeInto path bytes new = .ok composed) :
    composed.action = .unchanged ∧ bytes = bytesOf composed.content ∨
      composed.action = .merged ∧ bytes ≠ bytesOf composed.content := by
  by_cases haction : composed.action = .unchanged
  · exact .inl ⟨haction, bytes_of_mergeInto h haction⟩
  · rw [mergeInto] at h
    split at h
    · simp at h
    · rename_i existing hdecode
      split at h
      · simp at h
      · simp at h
      · rename_i merged hmerged
        obtain rfl := Except.ok.inj h
        have hne : merged ≠ existing := by
          rintro rfl
          simp at haction
        refine .inr ⟨if_neg hne, ?_⟩
        -- other text is written with other bytes
        rintro rfl
        rw [bytesOf, String.toList_ofList, Utf8.decode_encode] at hdecode
        exact hne (Except.ok.inj hdecode)

/-- **What is said of a file that is composed**: it is new, or it was read, and then the
action tells whether its bytes change. -/
theorem composeOn_cases (h : composeOn d path new isAppend = .ok composed) :
    d.exists? path = .ok false ∧ composed = ⟨new, .created⟩ ∨
      ∃ bytes, d.read path = .ok bytes ∧ (isAppend = false → composed.content = new) ∧
        (composed.action = .unchanged ∧ bytes = bytesOf composed.content ∨
          composed.action = changeAction isAppend ∧ bytes ≠ bytesOf composed.content) := by
  rw [composeOn] at h
  split at h
  · simp at h
  · rename_i hmissing
    exact .inl ⟨hmissing, (Except.ok.inj h).symm⟩
  · cases hread : d.read path with
    | error fault => simp [hread] at h
    | ok bytes =>
      refine .inr ⟨bytes, rfl, ?_⟩
      simp only [hread] at h
      cases isAppend with
      | true => exact ⟨by simp, action_of_mergeInto h⟩
      | false =>
        obtain rfl := Except.ok.inj h
        refine ⟨fun _ => rfl, ?_⟩
        by_cases hsame : bytes = bytesOf new
        · exact .inl ⟨if_pos hsame, hsame⟩
        · exact .inr ⟨if_neg hsame, hsame⟩

theorem created_iff (h : composeOn d path new isAppend = .ok composed) :
    composed.action = .created ↔ d.exists? path = .ok false := by
  rcases composeOn_cases h with ⟨hmissing, rfl⟩ | ⟨bytes, hread, -, haction⟩
  · simp [hmissing]
  · obtain ⟨hnul, mode, hentry⟩ := read_eq_ok_iff.mp hread
    rw [exists_of_entryAt hnul hentry]
    rcases haction with ⟨haction, -⟩ | ⟨haction, -⟩
    · simp [haction]
    · cases isAppend <;> simp [haction, changeAction]

theorem unchanged_iff (h : composeOn d path new isAppend = .ok composed) :
    composed.action = .unchanged ↔ d.read path = .ok (bytesOf composed.content) := by
  refine ⟨read_of_unchanged h, fun hread => ?_⟩
  rcases composeOn_cases h with ⟨hmissing, -⟩ | ⟨bytes, hread', -, haction⟩
  · -- what is read is there
    obtain ⟨hnul, mode, hentry⟩ := read_eq_ok_iff.mp hread
    rw [exists_of_entryAt hnul hentry] at hmissing
    simp at hmissing
  · exact haction.elim And.left fun ⟨_, hne⟩ =>
      (hne (Except.ok.inj (hread'.symm.trans hread))).elim

/-- In place of a file comes the new text, whatever the file holds, and whether it can be
composed does not depend on that either. -/
theorem composeOn_replace (h : SameShape d d') :
    (composeOn d' path new false).map (·.content) =
      (composeOn d path new false).map (·.content) := by
  rw [composeOn, composeOn, h.exists_eq]
  cases d.exists? path with
  | error fault => rfl
  | ok isThere =>
    cases isThere with
    | false => rfl
    | true =>
      rcases h.read_cases path with ⟨fault, hread, hread'⟩ | ⟨bytes, bytes', hread, hread'⟩
      · simp only [hread, hread']
      · simp only [hread, hread']
        rfl

/-! ## What is written -/

/-- What a file that is written leaves on a disk without links. -/
structure Placed (path : Path) (content : List UInt8) (p : Place) (w w' : World) : Prop where
  reached : Reached (· = p) w w'
  leads : w'.disk.locate .atLink path = .ok p
  unlogged : ¬ w'.IsLog p
  holds : w'.disk.read path = .ok content
  /-- A path that led nowhere has not come to anything that was there. -/
  fresh : IsTree w.disk → w.disk.Grounded path → w.disk.exists? path = .ok false →
    w.disk.look p = none

/-- **What a write leaves** on a disk without links. -/
theorem Stored.placed {content : List UInt8} {mode : Nat} {p : Place} {between : World}
    (h : Stored path content mode p w between w') (hlinks : NoLinksBelow w.disk [])
    (hnormal : path.IsNormal) : Placed path content p w w' := by
  have hnolinks := hlinks.grown h.widened.disk
  have hleaf : IsLeaf (between.disk.look p) := hnolinks.isLeaf List.nil_suffix h.directory
  refine ⟨.of_written h.widened hleaf h.written,
    h.replaced.locate_eq (isEnd_of_leaf hleaf) h.place, ?_,
    h.read (isEnd_of_leaf hleaf), fun htree hgrounded hmissing => ?_⟩
  · -- a log file in this place is no longer open
    rintro ⟨hplace, -⟩
    rw [h.log] at hplace
    split at hplace
    · simp at hplace
    · contradiction
  · have hnone : between.disk.look p = none := by
      by_contra hsome
      obtain ⟨e, he⟩ := Option.ne_none_iff_exists'.mp hsome
      have hbeyond := locate_beyond_of_none h.place fun target =>
        hnolinks p target List.nil_suffix
      exact h.not_exists hnormal htree hgrounded hmissing
        (exists_of_entryAt h.hasNul (entryAt_eq_ok_iff.mpr ⟨p, hbeyond, he⟩))
    -- the directories on the way take no place of a file either
    rcases h.ensured.paved.look p with heq | ⟨hfree, -⟩
    · rw [← heq, hnone]
    · exact hfree

theorem atomicWrite_placed {content : String} (hlinks : NoLinksBelow w.disk [])
    (hnormal : path.IsNormal) (h : (atomicWrite path content).runIn w = (.ok (), w')) :
    ∃ p, Placed path (bytesOf content) p w w' := by
  obtain ⟨mode, p, between, hstored⟩ := atomicWrite_stored (EndsInName.of_isNormal hnormal) h
  exact ⟨p, hstored.placed hlinks hnormal⟩

/-! ## The contract -/

/-- No log record goes to the file that a path leads to. -/
def Unlogged (w : World) (path : Path) : Prop :=
  ∀ q, w.disk.locate .beyond path = .ok q → ¬ w.IsLog q

theorem Unlogged.logged (h : Unlogged w path) (hlogged : World.Logged w w') :
    Unlogged w' path := by
  intro q hq hlog
  rw [hlogged.sameShape.locate_eq] at hq
  exact h q hq (hlogged.isLog_iff.mp hlog)

/-- No record goes to a file that was just written. -/
theorem Placed.unlogged_path {content : List UInt8} {p : Place} (h : Placed path content p w w') :
    Unlogged w' path := by
  obtain ⟨bytes, mode, hfile⟩ := h.reached.files p rfl
  intro q hq
  rw [← Except.ok.inj ((locate_beyond_of_file h.leads hfile).symm.trans hq)]
  exact h.unlogged

/-- What a call promises that returns: the path holds the content, the action says what
has become of it, and nothing else has changed that was there. -/
structure Delivered (path : Path) (new : String) (isAppend : Bool) (composed : Composed)
    (w w' : World) : Prop where
  holds : Unlogged w path ∨ composed.action ≠ .unchanged →
    w'.disk.read path = .ok (bytesOf composed.content)
  others : ∃ p, w'.disk.locate .atLink path = .ok p ∧
    Grown (fun q => q = p ∨ w.IsLog q) w.disk w'.disk
  created : composed.action = .created ↔ w.disk.exists? path = .ok false
  unchanged : composed.action = .unchanged ↔ w.disk.read path = .ok (bytesOf composed.content)
  otherwise : composed.action = .created ∨ composed.action = .unchanged ∨
    composed.action = changeAction isAppend
  idle : composed.action = .unchanged → World.Logged w w'
  fresh : composed.action = .created → IsTree w.disk → w.disk.Grounded path →
    ∀ q, (w.disk.look q).isSome → ¬ w.IsLog q → w'.disk.look q = w.disk.look q
  content : isAppend = false → composed.content = new

/-- What a call leaves that raises: a file that was not composed leaves nothing, and a
write that was refused leaves directories on the way. -/
structure Undelivered (path : Path) (new : String) (isAppend : Bool) (failure : Failure)
    (w w' : World) : Prop where
  cause : ((compose path new isAppend).runIn w).1 = .error failure ∧ World.Logged w w' ∨
    (∃ composed, ((compose path new isAppend).runIn w).1 = .ok composed) ∧
      (∃ fault, failure = .disk fault) ∧ Paved path.parent w.disk w'.disk
  replace : isAppend = false → ∃ fault, failure = .disk fault

theorem composeOn_action (h : composeOn d path new isAppend = .ok composed) :
    composed.action = .created ∨ composed.action = .unchanged ∨
      composed.action = changeAction isAppend := by
  rcases composeOn_cases h with ⟨-, rfl⟩ | ⟨bytes, -, -, ⟨haction, -⟩ | ⟨haction, -⟩⟩
  · exact .inl rfl
  · exact .inr (.inl haction)
  · exact .inr (.inr haction)

theorem composeOn_content (h : composeOn d path new false = .ok composed) :
    composed.content = new := by
  rcases composeOn_cases h with ⟨-, rfl⟩ | ⟨bytes, -, hcontent, -⟩
  · rfl
  · exact hcontent rfl

/-- A file that holds what it is to hold is only reported. -/
theorem delivered_of_unchanged
    (hcompose : composeOn w.disk path new isAppend = .ok composed)
    (haction : composed.action = .unchanged) (hlogged : World.Logged w w') :
    Delivered path new isAppend composed w w' where
  holds := by
    rintro (hunlogged | hchanged)
    · rw [hlogged.read_eq hunlogged, read_of_unchanged hcompose haction]
    · exact (hchanged haction).elim
  others := by
    obtain ⟨-, mode, hentry⟩ := read_eq_ok_iff.mp (read_of_unchanged hcompose haction)
    obtain ⟨q, hq, hlook⟩ := entryAt_eq_ok_iff.mp hentry
    obtain ⟨hlimit, hwalk⟩ := locate_eq_ok_iff.mp hq
    obtain ⟨p, hp, hleads⟩ := hwalk.exists_atLink
    refine ⟨p, ?_, hlogged.grown.mono (fun q hq => .inr hq) fun q hq hnot => hlogged.other q hnot⟩
    rw [hlogged.sameShape.locate_eq]
    exact locate_eq_ok_iff.mpr ⟨hlimit, hp⟩
  created := created_iff hcompose
  unchanged := unchanged_iff hcompose
  otherwise := composeOn_action hcompose
  idle := fun _ => hlogged
  fresh := by simp [haction]
  content := by
    rintro rfl
    exact composeOn_content hcompose

/-- A file that is written is reported after that. -/
theorem delivered_of_changed {p : Place} {w₁ : World}
    (hcompose : composeOn w.disk path new isAppend = .ok composed)
    (haction : composed.action ≠ .unchanged)
    (hplaced : Placed path (bytesOf composed.content) p w w₁) (hlogged : World.Logged w₁ w') :
    Delivered path new isAppend composed w w' where
  holds := by
    intro _
    rw [hlogged.read_eq hplaced.unlogged_path, hplaced.holds]
  others := by
    refine ⟨p, ?_, (hplaced.reached.logged hlogged).grown⟩
    rw [hlogged.sameShape.locate_eq, hplaced.leads]
  created := created_iff hcompose
  unchanged := unchanged_iff hcompose
  otherwise := composeOn_action hcompose
  idle := fun h => (haction h).elim
  fresh := by
    intro hcreated htree hgrounded q hq hlog
    have hfree := hplaced.fresh htree hgrounded ((created_iff hcompose).mp hcreated)
    have hqp : q ≠ p := by
      rintro rfl
      simp [hfree] at hq
    rw [hlogged.other q (fun h => hlog (hplaced.reached.isLog q h))]
    rcases hplaced.reached.grown.outside q hqp with heq | ⟨hnone, -⟩
    · exact heq
    · simp [hnone] at hq
  content := by
    rintro rfl
    exact composeOn_content hcompose

/-- In place of a file comes the new text, if the disk grants it. -/
theorem composeOn_replace_fails {failure : Failure}
    (h : composeOn d path new false = .error failure) : ∃ fault, failure = .disk fault := by
  rw [composeOn] at h
  split at h
  · exact ⟨_, (Except.error.inj h).symm⟩
  · simp at h
  · split at h
    · exact ⟨_, (Except.error.inj h).symm⟩
    · simp at h

theorem undelivered {failure : Failure} (hnormal : path.IsNormal)
    (h : (writeGenerated path new isAppend false).runIn w = (.error failure, w')) :
    Undelivered path new isAppend failure w w' := by
  cases hcompose : composeOn w.disk path new isAppend with
  | error failure' =>
    obtain ⟨w₁, hrun, hlogged⟩ : ∃ w₁, (writeGenerated path new isAppend false).runIn w =
        (.error failure', w₁) ∧ World.Logged w w₁ := writeGenerated_of_error hcompose
    obtain ⟨hfailure, rfl⟩ := Prod.mk.inj (hrun.symm.trans h)
    obtain rfl := Except.error.inj hfailure
    refine ⟨.inl ⟨by rw [compose_runIn, hcompose], hlogged⟩, ?_⟩
    rintro rfl
    exact composeOn_replace_fails hcompose
  | ok composed =>
    rcases writeGenerated_eq_error h with ⟨herror, -⟩ | ⟨content, hwrite⟩
    · rw [hcompose] at herror
      simp at herror
    · have hfault := atomicWrite_fails path content w failure w' hwrite
      rcases atomicWrite_ends (EndsInName.of_isNormal hnormal) (.of_runIn hwrite) with
        ⟨_, _, _, -, hok⟩ | ⟨-, hpaved⟩
      · simp at hok
      · exact ⟨.inr ⟨⟨composed, by rw [compose_runIn, hcompose]⟩, hfault, hpaved⟩, fun _ => hfault⟩

/-- **The contract of writing one file**, on a disk without links. In place of a file comes
the new text, whatever the files hold. -/
theorem writeGenerated_contract {result : Except Failure Composed}
    (hlinks : NoLinksBelow w.disk []) (hnormal : path.IsNormal)
    (h : (writeGenerated path new isAppend false).runIn w = (result, w')) :
    (∀ composed, result = .ok composed → Delivered path new isAppend composed w w') ∧
      (∀ failure, result = .error failure → Undelivered path new isAppend failure w w') ∧
      (∀ v : World, SameShape w.disk v.disk →
        ((compose path new false).runIn v).1.map (·.content) =
          ((compose path new false).runIn w).1.map (·.content)) := by
  refine ⟨?_, ?_, fun v hshape => ?_⟩
  · rintro composed rfl
    have hcompose := writeGenerated_eq_ok h
    by_cases haction : composed.action = .unchanged
    · obtain ⟨w₁, hrun, hlogged⟩ := writeGenerated_of_unchanged hcompose haction
      obtain rfl := (Prod.mk.inj (hrun.symm.trans h)).2
      exact delivered_of_unchanged hcompose haction hlogged
    · rw [writeGenerated_of_changed hcompose haction] at h
      obtain ⟨_, w₁, hwrite, hrecord⟩ := Work.runIn_bind_ok h
      have hlogged : World.Logged w₁ w' := (Prod.mk.inj hrecord).2 ▸ .log w₁ _
      obtain ⟨p, hplaced⟩ := atomicWrite_placed hlinks hnormal hwrite
      exact delivered_of_changed hcompose haction hplaced hlogged
  · rintro failure rfl
    exact undelivered hnormal h
  · rw [compose_runIn, compose_runIn]
    exact composeOn_replace hshape

/-- A world with one file that is no text. -/
private def binaryWorld : World :=
  .ofDisk ⟨[(["x"], .file [0xff] newFileMode)], []⟩

/-- The file is replaced without being read as text. -/
theorem writeGenerated_replaces_binary :
    ∃ w', (writeGenerated ⟨.here, ["x"]⟩ "new" false false).runIn binaryWorld =
        (.ok ⟨"new", .replaced⟩, w') ∧
      Delivered ⟨.here, ["x"]⟩ "new" false ⟨"new", .replaced⟩ binaryWorld w' := by
  have hresult : ((writeGenerated ⟨.here, ["x"]⟩ "new" false false).runIn binaryWorld).1 =
      .ok ⟨"new", .replaced⟩ := by decide +kernel
  exact ⟨_, Prod.ext hresult rfl, (writeGenerated_contract
    (noLinksBelow_of_entries (by decide +kernel)) (by decide) (Prod.ext hresult rfl)).1 _ rfl⟩

/-- A path that turns back from a directory that has to be made leads nowhere at first, so a
file is reported as created that replaces another one. A null character is noticed after
the directories have been made. -/
theorem writeGenerated_behind_missing :
    (binaryWorld.disk.exists? ⟨.here, ["a", "..", "x"]⟩ = .ok false ∧
      ∃ w', (writeGenerated ⟨.here, ["a", "..", "x"]⟩ "new" false false).runIn binaryWorld =
          (.ok ⟨"new", .created⟩, w') ∧
        binaryWorld.disk.look ["x"] = some (.file [0xff] newFileMode) ∧
        w'.disk.look ["x"] = some (.file (bytesOf "new") newFileMode)) ∧
      ∃ w', (writeGenerated ⟨.here, ["a", "x\x00"]⟩ "new" false false).runIn binaryWorld =
          (.error (.disk .nul), w') ∧
        binaryWorld.disk.look ["a"] = none ∧
        w'.disk.look ["a"] = some (.directory newDirectoryMode) := by
  have hcreated : ((writeGenerated ⟨.here, ["a", "..", "x"]⟩ "new" false false).runIn
      binaryWorld).1 = .ok ⟨"new", .created⟩ := by decide +kernel
  have hraised : ((writeGenerated ⟨.here, ["a", "x\x00"]⟩ "new" false false).runIn
      binaryWorld).1 = .error (.disk .nul) := by decide +kernel
  exact ⟨⟨by decide +kernel, _, Prod.ext hcreated rfl, rfl, by decide +kernel⟩,
    _, Prod.ext hraised rfl, rfl, by decide +kernel⟩

end Stencil.Module
