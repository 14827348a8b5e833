import Stencil.Module.Generate
import Stencil.Proofs.Module.Write
import Stencil.Proofs.Moves

/-!
# Stencil — files change by moves

Generation makes directories, keeps a log and writes temporary files, but a file
that was there or is to stay changes only when a finished one is moved in its
place. One write moves one file, its last step; a write that fails moves none and
leaves nothing behind. No disk is too odd for this: links may lead anywhere, and
the places of different paths may be the same.

Main results:

* `ensureDirectories_still`, `collect_still`, `compose_still` — work that changes no
  file;
* `atomicWrite_moves` — one write;
* `writeGenerated_moves` — one generated file.
-/

namespace Stencil.Module

open Stencil.Disk

/-! ## Moves that account for all changes -/

/-- Where the bytes of a file have changed, a file has been moved to, the log file
apart. No other file has become the log file. -/
structure Accounts (w : World) (ms : List Move) (w' : World) : Prop where
  bytes : ∀ q, w'.disk.bytesAt q ≠ w.disk.bytesAt q →
    w.logPlace? = some q ∨ ∃ m ∈ ms, m.place = q
  log : ∀ q, w'.logPlace? = some q → w.logPlace? = some q

theorem isTrace_accounts : Work.IsTrace Accounts where
  refl w := ⟨fun q hq => (hq rfl).elim, fun q hq => hq⟩
  trans {w ms w₁ ms' w₂} h h' := by
    refine ⟨fun q hq => ?_, fun q hq => h.log q (h'.log q hq)⟩
    -- what has changed in the end has changed in the first part or in the second
    by_cases hfirst : w₁.disk.bytesAt q = w.disk.bytesAt q
    · rcases h'.bytes q (hfirst ▸ hq) with hlog | ⟨m, hm, hplace⟩
      · exact .inl (h.log q hlog)
      · exact .inr ⟨m, List.mem_append_right ms hm, hplace⟩
    · exact (h.bytes q hfirst).imp_right fun ⟨m, hm, hplace⟩ =>
        ⟨m, List.mem_append_left ms' hm, hplace⟩

namespace Accounts

variable {w w' : World}

theorem of_logged (h : World.Logged w w') : Accounts w [] w' := by
  refine ⟨fun q hq => .inl ?_, fun q hq => h.logPlace ▸ hq⟩
  by_contra hlog
  exact hq (h.grown.bytesAt_eq fun hq => hlog hq.1)

theorem of_widened (h : Widened w w') : Accounts w [] w' := by
  refine ⟨fun q hq => (hq (h.disk.bytesAt_eq id)).elim, fun q hq => ?_⟩
  rwa [h.world] at hq

/-- One file has been written. -/
theorem of_written {p : Place} {bytes : List UInt8} (h : Written p bytes w w') (path : Path) :
    Accounts w [⟨path, p, bytes⟩] w' := by
  obtain ⟨⟨mode, hreplaced⟩, hlog⟩ := h
  refine ⟨fun q hq => .inr ⟨_, List.mem_singleton_self _, ?_⟩, fun q hq => ?_⟩
  · by_contra hne
    exact hq (by rw [bytesAt, bytesAt, hreplaced.other q (Ne.symm hne)])
  · rw [hlog] at hq
    split at hq
    · simp at hq
    · exact hq

end Accounts

/-- Nothing has been moved, and no file has changed but the log file. -/
structure Still (w : World) (ms : List Move) (w' : World) : Prop where
  moves : ms = []
  accounts : Accounts w [] w'

theorem Still.accountsFor {w w' : World} {ms : List Move} (h : Still w ms w') : Accounts w ms w' := by
  rw [h.moves]
  exact h.accounts

theorem isTrace_still : Work.IsTrace Still where
  refl w := ⟨rfl, isTrace_accounts.refl w⟩
  trans h h' := ⟨by rw [h.moves, h'.moves]; rfl, isTrace_accounts.trans h.accounts h'.accounts⟩

/-- What follows work that moves nothing makes all the moves. -/
theorem moves_after_still {α β : Type} {first : Work α} {next : α → Work β}
    (hfirst : Work.Traces Still first) {w w' : World} {a : α}
    (hrun : first.runIn w = (.ok a, w')) : (first >>= next).moves w = (next a).moves w' := by
  rw [Work.moves_bind_of_ok hrun, (hfirst w).moves, List.nil_append]

/-! ## Work that changes no file -/

/-- What the disk is asked without a change to it. -/
theorem granted_still {α : Type} {s : Script (Except Fault α)}
    (h : ∀ w, s.moves w = [] ∧ (s.run w).2 = w) : Work.Traces Still (Work.granted s) := by
  refine .granted fun w => ?_
  rw [(h w).1, (h w).2]
  exact isTrace_still.refl w

theorem log_still (severity : Log.Severity) (topic : Log.Topic) (message : String) :
    Work.Traces Still (Work.log severity topic message) :=
  fun w => ⟨rfl, .of_logged (.log w _)⟩

theorem ensureDirectory_still (path : Path) : Work.Traces Still (ensureDirectory path) := by
  have hmake : Work.Traces Still (Work.makeDirectory path) := fun w =>
    ⟨Work.moves_granted _ w, .of_widened (makeDirectory_widens path w)⟩
  refine .bind isTrace_still hmake.outcome fun result => ?_
  cases result with
  | ok _ => exact .pure isTrace_still ()
  | error failure =>
    show Work.Traces Still (if _ then _ else _)
    split
    · refine .bind isTrace_still (granted_still fun _ => ⟨rfl, rfl⟩) fun isThere => ?_
      cases isThere with
      | true => exact .pure isTrace_still ()
      | false => exact .throw isTrace_still failure
    · exact .throw isTrace_still failure

/-- **Making directories** changes no file. -/
theorem ensureDirectories_still (path : Path) : Work.Traces Still (ensureDirectories path) := by
  rw [ensureDirectories]
  induction path.parts.reverse with
  | nil => exact ensureDirectory_still _
  | cons name outer ih =>
    refine .bind isTrace_still (ensureDirectory_still _).outcome fun result => ?_
    cases result with
    | ok _ => exact .pure isTrace_still ()
    | error failure =>
      show Work.Traces Still (if _ then _ else _)
      split
      · exact .bind isTrace_still ih fun _ => ensureDirectory_still _
      · exact .throw isTrace_still failure

theorem modeToKeep_still (path : Path) : Work.Traces Still (modeToKeep path) := by
  refine .bind isTrace_still (granted_still fun _ => ⟨rfl, rfl⟩) fun isThere => ?_
  cases isThere with
  | true => exact granted_still fun _ => ⟨rfl, rfl⟩
  | false => exact .pure isTrace_still newFileMode

theorem compose_still (path : Path) (new : String) (isAppend : Bool) :
    Work.Traces Still (compose path new isAppend) := by
  refine .bind isTrace_still (granted_still fun _ => ⟨rfl, rfl⟩) fun isThere => ?_
  cases isThere with
  | false => exact .pure isTrace_still _
  | true =>
    refine .bind isTrace_still (granted_still fun _ => ⟨rfl, rfl⟩) fun bytes => ?_
    cases isAppend with
    | false => exact .pure isTrace_still _
    | true => exact .ofExcept isTrace_still _ _

theorem readPayload_still (path : Path) : Work.Traces Still (readPayload path) := by
  have htext : Work.Traces Still (Work.readText path) :=
    .bind isTrace_still (granted_still fun _ => ⟨rfl, rfl⟩) fun bytes =>
      .bind isTrace_still (.ofExcept isTrace_still _ _) fun cs => .pure isTrace_still _
  exact .bind isTrace_still htext fun text =>
    .bind isTrace_still (.ofExcept isTrace_still _ _) fun payload =>
      .bind isTrace_still (log_still _ _ _) fun _ => .pure isTrace_still payload

theorem collectOperation_still (r : Request) (operation : String) :
    Work.Traces Still (collectOperation r operation) := by
  refine .bind isTrace_still (granted_still fun _ => ⟨rfl, rfl⟩) fun isThere => ?_
  cases isThere with
  | false => exact .bind isTrace_still (log_still _ _ _) fun _ => .pure isTrace_still none
  | true =>
    refine .bind isTrace_still (readPayload_still _).outcome fun result => ?_
    -- a failure is logged at most, and thrown again
    cases result with
    | ok payload => exact .pure isTrace_still (some payload)
    | error failure =>
      cases failure with
      | parse cause =>
        exact .bind isTrace_still (log_still _ _ _) fun _ => .throw isTrace_still _
      | _ => exact .throw isTrace_still _

/-- **Reading the type files** changes no file. -/
theorem collect_still (r : Request) : Work.Traces Still (collect r) := by
  refine .bind isTrace_still (granted_still fun _ => ⟨rfl, rfl⟩) fun isThere => ?_
  cases isThere with
  | false => exact .throw isTrace_still _
  | true =>
    exact .mapM isTrace_still fun operation _ =>
      .bind isTrace_still (collectOperation_still r operation) fun payload? =>
        .pure isTrace_still (operation, payload?)

/-! ## Work that fails before it moves anything -/

/-- Work that makes such moves for its value, or fails and changes no file. -/
def MovesFor {α : Type} (Q : α → List Move → Prop) (work : Work α) (w : World) : Prop :=
  (∃ a w', work.runIn w = (.ok a, w') ∧ Q a (work.moves w) ∧ Accounts w (work.moves w) w') ∨
    ∃ failure w', work.runIn w = (.error failure, w') ∧ Still w (work.moves w) w'

section MovesFor

variable {α β : Type} {Q : α → List Move → Prop} {Q' : β → List Move → Prop} {w : World}

theorem MovesFor.accounts {work : Work α} (h : MovesFor Q work w) :
    Accounts w (work.moves w) (work.runIn w).2 := by
  rcases h with ⟨a, w', hrun, -, haccounts⟩ | ⟨failure, w', hrun, hstill⟩
  · rwa [hrun]
  · rw [hrun]
    exact hstill.accountsFor

theorem MovesFor.of_ok {work : Work α} (h : MovesFor Q work w) {a : α} {w' : World}
    (hrun : work.runIn w = (.ok a, w')) : Q a (work.moves w) := by
  rcases h with ⟨a', w₁, hrun', hQ, -⟩ | ⟨failure, w₁, hrun', -⟩
  · obtain rfl := Except.ok.inj (Prod.mk.inj (hrun'.symm.trans hrun)).1
    exact hQ
  · simp [hrun'] at hrun

theorem MovesFor.of_error {work : Work α} (h : MovesFor Q work w) {failure : Failure} {w' : World}
    (hrun : work.runIn w = (.error failure, w')) : work.moves w = [] := by
  rcases h with ⟨a, w₁, hrun', -⟩ | ⟨failure', w₁, -, hstill⟩
  · simp [hrun'] at hrun
  · exact hstill.moves

/-- Work that changes no file comes first. -/
theorem MovesFor.after {first : Work α} {next : α → Work β} (hfirst : Work.Traces Still first)
    (hnext : ∀ a w₁, first.runIn w = (.ok a, w₁) → MovesFor Q' (next a) w₁) :
    MovesFor Q' (first >>= next) w := by
  rcases hrun : first.runIn w with ⟨result, w₁⟩
  have hstill : Still w (first.moves w) w₁ := hfirst.of_runIn hrun
  cases result with
  | error failure =>
    refine .inr ⟨failure, w₁, by rw [Work.runIn_bind, hrun], ?_⟩
    rwa [Work.moves_bind_of_error hrun]
  | ok a =>
    rw [MovesFor, Work.runIn_bind_of_ok hrun, moves_after_still hfirst hrun]
    rcases hnext a w₁ hrun with ⟨b, w', hrun', hQ, haccounts⟩ | ⟨failure, w', hrun', hstill'⟩
    · exact .inl ⟨b, w', hrun', hQ, isTrace_accounts.trans hstill.accounts haccounts⟩
    · exact .inr ⟨failure, w', hrun', hstill'.moves,
        isTrace_accounts.trans hstill.accounts hstill'.accounts⟩

/-- Work that cannot fail and changes no file comes last. -/
theorem MovesFor.before {work : Work α} {next : α → Work β} (h : MovesFor Q work w)
    (hnext : ∀ a w₁, ∃ b w', (next a).runIn w₁ = (.ok b, w') ∧ Still w₁ ((next a).moves w₁) w' ∧
      ∀ ms, Q a ms → Q' b ms) : MovesFor Q' (work >>= next) w := by
  rcases h with ⟨a, w₁, hrun, hQ, haccounts⟩ | ⟨failure, w', hrun, hstill⟩
  · obtain ⟨b, w', hrun', hstill, hQ'⟩ := hnext a w₁
    refine .inl ⟨b, w', by rw [Work.runIn_bind_of_ok hrun, hrun'], ?_⟩
    rw [Work.moves_bind_of_ok hrun, hstill.moves, List.append_nil]
    refine ⟨hQ' _ hQ, ?_⟩
    simpa using isTrace_accounts.trans haccounts hstill.accounts
  · refine .inr ⟨failure, w', by rw [Work.runIn_bind, hrun], ?_⟩
    rwa [Work.moves_bind_of_error hrun]

/-- Work that changes no file. -/
theorem MovesFor.of_still {work : Work α} (h : Work.Traces Still work)
    (hQ : ∀ a w', work.runIn w = (.ok a, w') → Q a []) : MovesFor Q work w := by
  rcases hrun : work.runIn w with ⟨result, w'⟩
  have hstill : Still w (work.moves w) w' := h.of_runIn hrun
  cases result with
  | error failure => exact .inr ⟨failure, w', hrun, hstill⟩
  | ok a =>
    rw [MovesFor, hstill.moves]
    exact .inl ⟨a, w', hrun, hQ a w' hrun, hstill.accounts⟩

end MovesFor

/-! ## One write -/

/-- One file has been moved to a path. -/
def IsMoveTo (path : Path) (bytes : List UInt8) (ms : List Move) : Prop :=
  ∃ p, ms = [⟨path, p, bytes⟩]

section Write

variable {path : Path} {w : World}

/-- A log file that is forgotten was the log file. -/
theorem logPlace_of_forget {temporary : Path} {q : Place}
    (h : (w.forget temporary).logPlace? = some q) : w.logPlace? = some q := by
  rw [World.forget] at h
  split at h
  · split at h
    · simp at h
    · exact h
  · exact h

theorem remove_moves (temporary : Path) (w : World) : (Work.remove temporary).moves w = [] := by
  show Script.moves (Script.bind (Script.step (.remove temporary)) _) w = []
  rw [Script.moves_bind]
  simp only [Script.step, Script.run, Script.moves, World.movesBy, List.nil_append]
  split <;> rfl

/-- What a granted request to move a file moves. -/
theorem rename_moves {temporary : Path} {d' : Disk} {t p : Place} {bytes : List UInt8} {mode : Nat}
    (ht : w.disk.locate .atLink temporary = .ok t) (hp : w.disk.locate .atLink path = .ok p)
    (hpnil : p ≠ []) (hfile : w.disk.look t = some (.file bytes mode))
    (h : w.disk.rename temporary path = .ok d') :
    (Work.rename temporary path).moves w = [⟨path, p, bytes⟩] := by
  obtain ⟨-, -, -, origin, place, e, horigin, hplace, he, -, rfl⟩ := rename_eq_ok_iff.mp h
  obtain rfl := Except.ok.inj (ht.symm.trans horigin)
  obtain rfl := Except.ok.inj (hp.symm.trans hplace)
  obtain rfl := Option.some.inj (hfile.symm.trans he)
  have hbytes : ((w.disk.erase t).put p (.file bytes mode)).bytesAt p = some bytes := by
    rw [bytesAt, look_put_self _ _ hpnil]
  rw [Work.rename, Work.moves_granted]
  simp only [Script.step, Script.moves, World.movesBy, h, hp, hbytes]
  rfl

theorem fillTemporary_moves (temporary : Path) (content : List UInt8) (mode : Nat) (w : World) :
    (Work.fill temporary content >>= fun _ => Work.setMode temporary mode).moves w = [] := by
  have hnone : Work.IsTrace fun _ ms _ => ms = [] :=
    ⟨fun _ => rfl, fun h h' => by rw [h, h']; rfl⟩
  exact Work.Traces.bind hnone (.granted fun _ => rfl) (fun _ => .granted fun _ => rfl) w

/-- A temporary file that is gone again has never been. -/
theorem Accounts.of_removed {d : Disk} {t : Place} {bytes : List UInt8} {mode : Nat}
    (hd : Replaced t bytes mode w.disk d) (hnone : w.disk.look t = none) (temporary : Path) :
    Accounts w [] { World.forget { w with disk := d } temporary with disk := d.erase t } := by
  refine ⟨fun q hq => (hq ?_).elim, fun q => logPlace_of_forget (w := { w with disk := d })⟩
  rw [bytesAt, bytesAt, hd.look_erase hnone]

/-- **Filling and moving a temporary file**: it comes to lie where the path leads, or
the move is refused and it stays where it is. -/
theorem fillAndMove_cases {temporary : Path} {t : Place} (hname : EndsInName path)
    (content : List UInt8) (hnul : temporary.hasNul = false)
    (ht : w.disk.locate .atLink temporary = .ok t) (hnone : w.disk.look t = none) (mode : Nat)
    {w₁ : World} (hw₁ : w₁ = { w with disk := w.disk.put t (.file [] temporaryMode) }) :
    (∃ p w', (fillAndMove temporary path content mode).runIn w₁ = (.ok (), w') ∧
      (fillAndMove temporary path content mode).moves w₁ = [⟨path, p, content⟩] ∧
      Written p content w w') ∨
      ∃ fault d, (fillAndMove temporary path content mode).runIn w₁ =
          (.error (.disk fault), { w with disk := d }) ∧
        (fillAndMove temporary path content mode).moves w₁ = [] ∧
        Replaced t content mode w.disk d ∧ d.locate .atLink temporary = .ok t := by
  obtain ⟨d, hd, htd, hfill⟩ := fillTemporary_runIn content hnul ht hnone mode
  rw [← hw₁] at hfill
  rw [fillAndMove_eq, Work.runIn_bind_of_ok hfill, Work.moves_bind_of_ok hfill,
    fillTemporary_moves, List.nil_append]
  cases hmoved : d.rename temporary path with
  | ok d' =>
    obtain ⟨-, -, -, -, p, -, -, hp, -, -, -⟩ := rename_eq_ok_iff.mp hmoved
    have hpnil := hname.place_ne_nil hp
    obtain ⟨w', hrename, hwritten⟩ := rename_written hd hnone htd hp hpnil hmoved
    exact .inl ⟨p, w', hrename, rename_moves htd hp hpnil hd.self hmoved, hwritten⟩
  | error fault =>
    refine .inr ⟨fault, d, ?_, ?_, hd, htd⟩
    · rw [Work.runIn_rename, hmoved]
      rfl
    · rw [Work.rename, Work.moves_granted]
      simp only [Script.step, Script.moves, World.movesBy, hmoved]
      rfl

/-- **One write** moves one file to its path, or fails and leaves all files alone. -/
theorem atomicWrite_moves (hname : EndsInName path) (content : String) (w : World) :
    MovesFor (fun _ => IsMoveTo path (bytesOf content)) (atomicWrite path content) w := by
  refine .after (ensureDirectories_still _) fun _ w _ => ?_
  refine .after (modeToKeep_still path) fun mode w _ => ?_
  have hmoveless : (Work.makeTemporary path).moves w = [] := Work.moves_granted _ w
  cases hmade : w.disk.makeTemporary path with
  | error fault =>
    have hrun : (Work.makeTemporary path).runIn w = (.error (.disk fault), w) := by
      rw [Work.runIn_makeTemporary, World.perform, hmade]
      rfl
    refine .inr ⟨_, w, by rw [Work.runIn_bind, hrun], ?_⟩
    rw [Work.moves_bind_of_error hrun, hmoveless]
    exact isTrace_still.refl w
  | ok made =>
    obtain ⟨temporary, d₁⟩ := made
    obtain ⟨rfl, hnul, t, ht, hnone, rfl⟩ := makeTemporary_eq_ok_iff.mp hmade
    have hmake := Work.runIn_makeTemporary_of_ok hmade
    rw [MovesFor, Work.runIn_bind_of_ok hmake, Work.moves_bind_of_ok hmake, hmoveless,
      List.nil_append, Work.runIn_bind, Work.runIn_outcome]
    have houtcome := Work.runIn_outcome (fillAndMove (w.disk.temporaryPath path) path
      (bytesOf content) mode) { w with disk := w.disk.put t (.file [] temporaryMode) }
    rw [Work.moves_bind_of_ok houtcome, Work.moves_outcome]
    rcases fillAndMove_cases hname (bytesOf content) hnul ht hnone mode rfl with
      ⟨p, w', hrun, hmoves, hwritten⟩ | ⟨fault, d, hrun, hmoves, hd, htd⟩
    · rw [hrun, hmoves]
      exact .inl ⟨(), w', rfl, ⟨p, rfl⟩, .of_written hwritten path⟩
    · -- what could not be moved is removed
      have hremove := remove_runIn (w := { w with disk := d }) hnul htd hd.self
      rw [hrun, hmoves]
      dsimp only
      rw [Work.runIn_bind_of_ok hremove, Work.moves_bind_of_ok hremove, remove_moves]
      exact .inr ⟨.disk fault, _, rfl, rfl, .of_removed hd hnone _⟩

end Write

/-! ## Generated files -/

/-- Whether a file has been changed. -/
def Action.isChange : Action → Bool
  | .created => true
  | .replaced => true
  | .merged => true
  | .unchanged => false
  | .skipped => false

theorem mergeInto_ne_skipped {path : Path} {bytes : List UInt8} {new : String}
    {composed : Composed} (h : mergeInto path bytes new = .ok composed) :
    composed.action ≠ .skipped := by
  rw [mergeInto] at h
  split at h
  · simp at h
  · split at h
    · simp at h
    · simp at h
    · obtain rfl := Except.ok.inj h
      dsimp only
      split <;> simp

/-- A file that is composed is changed, unless it holds already what it is to hold. -/
theorem isChange_of_composeOn {d : Disk} {path : Path} {new : String} {isAppend : Bool}
    {composed : Composed} (h : composeOn d path new isAppend = .ok composed) :
    composed.action.isChange = true ↔ composed.action ≠ .unchanged := by
  -- a file is skipped only when type files are made
  suffices composed.action ≠ .skipped by
    cases haction : composed.action <;> simp_all [Action.isChange]
  rw [composeOn] at h
  split at h
  · simp at h
  · obtain rfl := Except.ok.inj h
    simp
  · split at h
    · simp at h
    · split at h
      · exact mergeInto_ne_skipped h
      · obtain rfl := Except.ok.inj h
        rw [replaceIn]
        dsimp only
        split <;> simp

theorem reportConflict_still (failure : Failure) : Work.Traces Still (reportConflict failure) := by
  cases failure with
  | conflict path reason => exact log_still _ _ _
  | _ => exact .pure isTrace_still ()

/-- What is moved for a file that has been composed. -/
def MovedAs (path : Path) (composed : Composed) (ms : List Move) : Prop :=
  if composed.action.isChange then IsMoveTo path (bytesOf composed.content) ms else ms = []

/-- **One generated file**: it is moved to its path if it is changed. -/
theorem writeGenerated_moves {path : Path} (hname : EndsInName path) (new : String)
    (isAppend : Bool) (w : World) :
    MovesFor (MovedAs path) (writeGenerated path new isAppend false) w := by
  refine .after (compose_still path new isAppend).outcome fun result w₁ hrun => ?_
  rw [Work.runIn_outcome, compose_runIn] at hrun
  obtain ⟨hresult, rfl⟩ := Prod.mk.inj hrun
  cases result with
  | error failure =>
    refine .of_still (.bind isTrace_still (reportConflict_still failure) fun _ =>
      .throw isTrace_still failure) fun composed w' hrun => ?_
    obtain ⟨_, w₁, -, hrun⟩ := Work.runIn_bind_ok hrun
    simp at hrun
  | ok composed =>
    have hchange := isChange_of_composeOn (Except.ok.inj hresult)
    dsimp only
    rw [if_neg Bool.false_ne_true]
    split
    · rename_i hunchanged
      refine .of_still (.bind isTrace_still (log_still _ _ _) fun _ => .pure isTrace_still composed)
        fun composed' w' hrun => ?_
      obtain rfl := Except.ok.inj (Prod.mk.inj hrun).1
      rw [MovedAs, if_neg fun h => hchange.mp h hunchanged]
    · rename_i hchanged
      refine (atomicWrite_moves hname composed.content w).before fun _ w₁ =>
        ⟨composed, _, rfl, ⟨rfl, .of_logged (.log w₁ _)⟩, fun ms hms => ?_⟩
      rw [MovedAs, if_pos (hchange.mpr hchanged)]
      exact hms

end Stencil.Module
