import Stencil.Proofs.Run

/-!
# Stencil — runs in which requests are refused

A disk may refuse a request for reasons that are not on the disk: there is no
space left, or the permission is missing. Such a request changes nothing, and the
script goes on with the refusal. `MayEnd` says how work may end if any of its
requests may be refused so; the run in which none is refused is one of the ways.

Main results:

* `mayEnd_bind`, `mayEnd_bind_outcome`, `mayEnd_mapM_cons` — the ways in which combined
  work may end;
* `Refusable` — single requests: they are carried out, or have no effect;
* `mayEnd_runIn` — the run in which nothing is refused.
-/

namespace Stencil

open Stencil.Disk

/-! ## Refusals -/

/-- Whether the reason says that a path leads nowhere. -/
def Disk.Errno.isAbsence : Errno → Bool
  | .noEntry => true
  | .notDirectory => true
  | .linkLoop => true
  | _ => false

/-- What a request is answered that is refused for this reason. Whether a path leads
anywhere is answered also if it leads nowhere. A file can always be removed. -/
def Call.refusal (code : Errno) : (call : Call) → Option call.Answer
  | .exists? path | .isFile? path | .isDirectory? path =>
    if code.isAbsence then none else some (.error (.refused code path.text))
  | .read path => some (.error (.refused code path.text))
  | .mode path => some (.error (.refused code path.text))
  | .makeDirectory path => some (.error (.refused code path.text))
  | .makeTemporary path => some (.error (.refused code path.text))
  | .fill path _ => some (.error (.refused code path.text))
  | .setMode path _ => some (.error (.refused code path.text))
  | .rename source target => some (.error (.refusedPair code source.text target.text))
  | .resolve path => some (.error (.refused code path.text))
  | _ => none

/-- How a script may end, if the disk may refuse what it asks for. -/
inductive Script.MayEnd {α : Type} : Script α → World → α → World → Prop
  | done (a : α) (w : World) : MayEnd (.done a) w a w
  | granted {call : Call} {next : call.Answer → Script α} {w w' : World} {a : α}
      (h : MayEnd (next (w.perform call).1) (w.perform call).2 a w') :
      MayEnd (.ask call next) w a w'
  | refused {call : Call} {next : call.Answer → Script α} {w w' : World} {a : α} {code : Errno}
      {answer : call.Answer} (hanswer : call.refusal code = some answer)
      (h : MayEnd (next answer) w a w') : MayEnd (.ask call next) w a w'

namespace Script

variable {α β : Type} {w w' : World}

/-- The run in which nothing is refused. -/
theorem mayEnd_run (s : Script α) (w : World) : s.MayEnd w (s.run w).1 (s.run w).2 := by
  induction s generalizing w with
  | done a => exact .done a w
  | ask call next ih => exact .granted (ih _ _)

/-- One script after another ends as the second one may, after an end of the first. -/
theorem mayEnd_bind {s : Script α} {f : α → Script β} {b : β} :
    (s.bind f).MayEnd w b w' ↔ ∃ a w₁, s.MayEnd w a w₁ ∧ (f a).MayEnd w₁ b w' := by
  constructor
  · intro h
    induction s generalizing w with
    | done a => exact ⟨a, w, .done a w, h⟩
    | ask call next ih =>
      cases h with
      | granted h =>
        obtain ⟨a, w₁, hfirst, hsecond⟩ := ih _ h
        exact ⟨a, w₁, .granted hfirst, hsecond⟩
      | refused hanswer h =>
        obtain ⟨a, w₁, hfirst, hsecond⟩ := ih _ h
        exact ⟨a, w₁, .refused hanswer hfirst, hsecond⟩
  · rintro ⟨a, w₁, hfirst, hsecond⟩
    induction hfirst with
    | done a w => exact hsecond
    | granted _ ih => exact .granted (ih hsecond)
    | refused hanswer _ ih => exact .refused hanswer (ih hsecond)

theorem mayEnd_done {a b : α} : (Script.done a).MayEnd w b w' ↔ b = a ∧ w' = w := by
  constructor
  · rintro ⟨⟩
    exact ⟨rfl, rfl⟩
  · rintro ⟨rfl, rfl⟩
    exact .done b w'

/-- A single step is carried out or refused. -/
theorem mayEnd_step {call : Call} {answer : call.Answer} :
    (Script.step call).MayEnd w answer w' ↔
      (Script.step call).run w = (answer, w') ∨
        (∃ code, call.refusal code = some answer) ∧ w' = w := by
  constructor
  · rintro ⟨⟩
    · rename_i h
      obtain ⟨rfl, rfl⟩ := mayEnd_done.mp h
      exact .inl rfl
    · rename_i code answer' hanswer h
      obtain ⟨rfl, rfl⟩ := mayEnd_done.mp h
      exact .inr ⟨⟨code, hanswer⟩, rfl⟩
  · rintro (h | ⟨⟨code, hanswer⟩, rfl⟩)
    · obtain ⟨rfl, rfl⟩ := Prod.mk.inj h
      exact .granted (.done _ _)
    · exact .refused hanswer (.done _ _)

end Script

namespace Work

variable {α β : Type} {w w' : World}

/-- How work may end, if the disk may refuse what it asks for. -/
def MayEnd (work : Work α) (w : World) (result : Except Failure α) (w' : World) : Prop :=
  Script.MayEnd (ExceptT.run work) w result w'

/-- **The run in which nothing is refused.** -/
theorem mayEnd_runIn (work : Work α) (w : World) :
    work.MayEnd w (work.runIn w).1 (work.runIn w).2 :=
  Script.mayEnd_run _ w

theorem MayEnd.of_runIn {work : Work α} {result : Except Failure α}
    (h : work.runIn w = (result, w')) : work.MayEnd w result w' := by
  have hend := mayEnd_runIn work w
  rwa [h] at hend

/-! ## Combined work -/

theorem mayEnd_pure {a : α} {result : Except Failure α} :
    (pure a : Work α).MayEnd w result w' ↔ result = .ok a ∧ w' = w :=
  Script.mayEnd_done

theorem mayEnd_throw {failure : Failure} {result : Except Failure α} :
    (throw failure : Work α).MayEnd w result w' ↔ result = .error failure ∧ w' = w :=
  Script.mayEnd_done

/-- **Two pieces of work** end in the second one, or in a failure of the first. -/
theorem mayEnd_bind {work : Work α} {next : α → Work β} {result : Except Failure β} :
    (work >>= next).MayEnd w result w' ↔
      (∃ a w₁, work.MayEnd w (.ok a) w₁ ∧ (next a).MayEnd w₁ result w') ∨
        ∃ failure, work.MayEnd w (.error failure) w' ∧ result = .error failure := by
  show (Script.bind (ExceptT.run work) (ExceptT.bindCont next)).MayEnd w result w' ↔ _
  rw [Script.mayEnd_bind]
  constructor
  · rintro ⟨a | failure, w₁, hfirst, hsecond⟩
    · obtain ⟨rfl, rfl⟩ := Script.mayEnd_done.mp hsecond
      exact .inr ⟨_, hfirst, rfl⟩
    · exact .inl ⟨_, w₁, hfirst, hsecond⟩
  · rintro (⟨a, w₁, hfirst, hsecond⟩ | ⟨failure, hfirst, rfl⟩)
    · exact ⟨.ok a, w₁, hfirst, hsecond⟩
    · exact ⟨.error failure, w', hfirst, .done _ _⟩

/-- Work that looks at the outcome of other work goes on after every end of it. -/
theorem mayEnd_bind_outcome {work : Work α} {next : Except Failure α → Work β}
    {result : Except Failure β} :
    (outcome work >>= next).MayEnd w result w' ↔
      ∃ a w₁, work.MayEnd w a w₁ ∧ (next a).MayEnd w₁ result w' := by
  have houtcome : ∀ {a w₁}, (outcome work).MayEnd w a w₁ ↔
      ∃ b, work.MayEnd w b w₁ ∧ a = .ok b := by
    intro a w₁
    show (Script.bind (ExceptT.run work) fun b => Script.done (Except.ok b)).MayEnd w a w₁ ↔ _
    simp only [Script.mayEnd_bind, Script.mayEnd_done]
    exact ⟨fun ⟨b, _, hwork, ha, hw⟩ => ⟨b, hw ▸ hwork, ha⟩,
      fun ⟨b, hwork, ha⟩ => ⟨b, w₁, hwork, ha, rfl⟩⟩
  rw [mayEnd_bind]
  constructor
  · rintro (⟨a, w₁, hfirst, hsecond⟩ | ⟨failure, hfirst, -⟩)
    · obtain ⟨b, hwork, heq⟩ := houtcome.mp hfirst
      obtain rfl := Except.ok.inj heq
      exact ⟨a, w₁, hwork, hsecond⟩
    · obtain ⟨b, -, heq⟩ := houtcome.mp hfirst
      simp at heq
  · rintro ⟨a, w₁, hwork, hsecond⟩
    exact .inl ⟨a, w₁, houtcome.mpr ⟨a, hwork, rfl⟩, hsecond⟩

theorem mayEnd_granted {s : Script (Except Fault α)} {result : Except Failure α} :
    (granted s).MayEnd w result w' ↔ ∃ answer, s.MayEnd w answer w' ∧ result = answered answer := by
  show (Script.bind s _).MayEnd w result w' ↔ _
  rw [Script.mayEnd_bind]
  constructor
  · rintro ⟨answer | answer, w₁, hs, hdone⟩
    · obtain ⟨rfl, rfl⟩ := Script.mayEnd_done.mp hdone
      exact ⟨_, hs, rfl⟩
    · obtain ⟨rfl, rfl⟩ := Script.mayEnd_done.mp hdone
      exact ⟨_, hs, rfl⟩
  · rintro ⟨answer, hs, rfl⟩
    refine ⟨answer, w', hs, ?_⟩
    cases answer <;> exact .done _ _

theorem mayEnd_ofExcept {ε : Type} {toFailure : ε → Failure} {answer : Except ε α}
    {result : Except Failure α} :
    (ofExcept toFailure answer).MayEnd w result w' ↔
      result = answer.mapError toFailure ∧ w' = w := by
  cases answer with
  | ok a => exact mayEnd_pure
  | error e => exact mayEnd_throw

/-- **Work over a list** ends member by member, or in a failure of one of them. -/
theorem mayEnd_mapM_cons {f : α → Work β} {a : α} {as : List α}
    {result : Except Failure (List β)} :
    ((a :: as).mapM f).MayEnd w result w' ↔
      (∃ b w₁ rest, (f a).MayEnd w (.ok b) w₁ ∧ (as.mapM f).MayEnd w₁ rest w' ∧
        result = rest.map (b :: ·)) ∨
        ∃ failure, (f a).MayEnd w (.error failure) w' ∧ result = .error failure := by
  rw [List.mapM_cons, mayEnd_bind]
  refine or_congr ⟨?_, ?_⟩ .rfl
  · rintro ⟨b, w₁, hfirst, hnext⟩
    rcases mayEnd_bind.mp hnext with ⟨bs, w₂, hrest, hdone⟩ | ⟨failure, hrest, rfl⟩
    · obtain ⟨rfl, rfl⟩ := mayEnd_pure.mp hdone
      exact ⟨b, w₁, _, hfirst, hrest, rfl⟩
    · exact ⟨b, w₁, _, hfirst, hrest, rfl⟩
  · rintro ⟨b, w₁, rest, hfirst, hrest, rfl⟩
    refine ⟨b, w₁, hfirst, mayEnd_bind.mpr ?_⟩
    cases rest with
    | ok bs => exact .inl ⟨bs, w', hrest, mayEnd_pure.mpr ⟨rfl, rfl⟩⟩
    | error failure => exact .inr ⟨failure, hrest, rfl⟩

/-- What every member keeps, work over a list keeps. -/
theorem mapM_keeps {R : World → World → Prop} (hrefl : ∀ w, R w w)
    (htrans : ∀ w₁ w₂ w₃, R w₁ w₂ → R w₂ w₃ → R w₁ w₃) {f : α → Work β} {as : List α}
    {result : Except Failure (List β)}
    (hkeeps : ∀ a ∈ as, ∀ w result w', (f a).MayEnd w result w' → R w w')
    (h : (as.mapM f).MayEnd w result w') : R w w' := by
  induction as generalizing w result with
  | nil =>
    obtain ⟨-, rfl⟩ := mayEnd_pure.mp h
    exact hrefl w'
  | cons a as ih =>
    rcases mayEnd_mapM_cons.mp h with ⟨b, w₁, rest, hfirst, hrest, -⟩ | ⟨failure, hfirst, -⟩
    · exact htrans _ w₁ _ (hkeeps a (by simp) _ _ _ hfirst)
        (ih (fun a' ha' => hkeeps a' (List.mem_cons_of_mem a ha')) hrest)
    · exact hkeeps a (by simp) _ _ _ hfirst

/-! ## Single requests -/

/-- A record is made in any case. -/
theorem mayEnd_log {severity : Log.Severity} {topic : Log.Topic} {message : String}
    {result : Except Failure Unit} :
    (Work.log severity topic message).MayEnd w result w' ↔
      result = .ok () ∧ w' = w.log ⟨severity, topic, message⟩ := by
  show (Script.bind (Script.step (.log ⟨severity, topic, message⟩)) _).MayEnd w result w' ↔ _
  rw [Script.mayEnd_bind]
  constructor
  · rintro ⟨_, w₁, hstep, hdone⟩
    have hrun := (Script.mayEnd_step.mp hstep).resolve_right fun ⟨⟨_, hcode⟩, _⟩ => by
      simp [Call.refusal] at hcode
    obtain ⟨rfl, rfl⟩ := Script.mayEnd_done.mp hdone
    exact ⟨rfl, (Prod.mk.inj hrun).2.symm⟩
  · rintro ⟨rfl, rfl⟩
    exact ⟨(), _, Script.mayEnd_step.mpr (.inl rfl), .done _ _⟩

/-- A request is carried out, or fails and changes nothing. -/
structure Refusable (work : Work α) : Prop where
  of_ok : ∀ {w a w'}, work.MayEnd w (.ok a) w' → work.runIn w = (.ok a, w')
  of_error : ∀ {w failure w'}, work.MayEnd w (.error failure) w' → w' = w

namespace Refusable

/-- What the disk itself does not grant changes nothing either. -/
theorem granted {s : Script (Except Fault α)}
    (h : ∀ {w answer w'}, s.MayEnd w answer w' →
      s.run w = (answer, w') ∨ (∃ fault, answer = .error fault) ∧ w' = w)
    (hfails : ∀ {w fault}, (s.run w).1 = .error fault → (s.run w).2 = w) :
    Refusable (Work.granted s) where
  of_ok := by
    intro w a w' hend
    obtain ⟨answer, hs, hanswer⟩ := mayEnd_granted.mp hend
    rcases h hs with hrun | ⟨⟨fault, rfl⟩, -⟩
    · rw [runIn_granted, hrun, ← hanswer]
    · simp at hanswer
  of_error := by
    intro w failure w' hend
    obtain ⟨answer, hs, hanswer⟩ := mayEnd_granted.mp hend
    rcases h hs with hrun | ⟨-, hw⟩
    · obtain ⟨fault, rfl, -⟩ := answered_eq_error.mp hanswer.symm
      have hw := @hfails w fault (by rw [hrun])
      rwa [hrun] at hw
    · exact hw

/-- A look that is refused fails. -/
private theorem error_of_look {code : Errno} {fault : Fault} {answer : Except Fault α}
    (h : (if code.isAbsence then none else some (.error fault)) = some answer) :
    ∃ fault, answer = .error fault := by
  split at h
  · simp at h
  · exact ⟨fault, (Option.some.inj h).symm⟩

theorem exists? (path : Path) : Refusable (Work.exists? path) :=
  .granted (fun h => (Script.mayEnd_step.mp h).imp_right <| .imp_left fun ⟨_, hcode⟩ =>
    error_of_look hcode) fun _ => rfl

theorem isDirectory? (path : Path) : Refusable (Work.isDirectory? path) :=
  .granted (fun h => (Script.mayEnd_step.mp h).imp_right <| .imp_left fun ⟨_, hcode⟩ =>
    error_of_look hcode) fun _ => rfl

theorem read (path : Path) : Refusable (Work.read path) :=
  .granted (fun h => (Script.mayEnd_step.mp h).imp_right <| .imp_left fun ⟨_, hcode⟩ =>
    ⟨_, (Option.some.inj hcode).symm⟩) fun _ => rfl

theorem mode (path : Path) : Refusable (Work.mode path) :=
  .granted (fun h => (Script.mayEnd_step.mp h).imp_right <| .imp_left fun ⟨_, hcode⟩ =>
    ⟨_, (Option.some.inj hcode).symm⟩) fun _ => rfl

/-- A change that is not granted is none. -/
private theorem change_eq_self {w : World} {made : Except Fault Disk} {fault : Fault}
    (h : (w.change made).1 = .error fault) : (w.change made).2 = w := by
  cases made with
  | ok d => simp [World.change] at h
  | error _ => rfl

theorem makeDirectory (path : Path) : Refusable (Work.makeDirectory path) :=
  .granted (fun h => (Script.mayEnd_step.mp h).imp_right <| .imp_left fun ⟨_, hcode⟩ =>
    ⟨_, (Option.some.inj hcode).symm⟩) change_eq_self

theorem makeTemporary (path : Path) : Refusable (Work.makeTemporary path) := by
  refine .granted (fun h => (Script.mayEnd_step.mp h).imp_right <| .imp_left fun ⟨_, hcode⟩ =>
    ⟨_, (Option.some.inj hcode).symm⟩) fun {w fault} h => ?_
  simp only [Script.step, Script.run, World.perform] at h ⊢
  cases hmade : w.disk.makeTemporary path with
  | ok made => simp [hmade] at h
  | error _ => rfl

theorem fill (path : Path) (bytes : List UInt8) : Refusable (Work.fill path bytes) :=
  .granted (fun h => (Script.mayEnd_step.mp h).imp_right <| .imp_left fun ⟨_, hcode⟩ =>
    ⟨_, (Option.some.inj hcode).symm⟩) change_eq_self

theorem setMode (path : Path) (mode : Nat) : Refusable (Work.setMode path mode) :=
  .granted (fun h => (Script.mayEnd_step.mp h).imp_right <| .imp_left fun ⟨_, hcode⟩ =>
    ⟨_, (Option.some.inj hcode).symm⟩) change_eq_self

theorem rename (source target : Path) : Refusable (Work.rename source target) := by
  refine .granted (fun h => (Script.mayEnd_step.mp h).imp_right <| .imp_left fun ⟨_, hcode⟩ =>
    ⟨_, (Option.some.inj hcode).symm⟩) fun {w fault} h => ?_
  simp only [Script.step, Script.run, World.perform] at h ⊢
  cases hmoved : w.disk.rename source target with
  | ok d => simp [hmoved, World.replace] at h
  | error _ => rfl

end Refusable

/-- What the disk says of a path is so, if it says anything. -/
theorem mayEnd_exists? {path : Path} {result : Except Failure Bool}
    (h : (Work.exists? path).MayEnd w result w') :
    w' = w ∧ ∀ isThere, result = .ok isThere → w.disk.exists? path = .ok isThere := by
  cases result with
  | error failure => exact ⟨(Refusable.exists? path).of_error h, by simp⟩
  | ok isThere =>
    have hrun := (Refusable.exists? path).of_ok h
    rw [runIn_exists?] at hrun
    obtain ⟨hanswer, rfl⟩ := Prod.mk.inj hrun
    refine ⟨rfl, fun isThere' hsame => ?_⟩
    rw [← Except.ok.inj hsame]
    exact mapError_eq_ok.mp hanswer

/-- To remove a file is carried out in any case. -/
theorem mayEnd_remove {path : Path} {result : Except Failure Unit}
    (h : (Work.remove path).MayEnd w result w') : (Work.remove path).runIn w = (result, w') := by
  obtain ⟨answer, w₁, hstep, hrest⟩ := Script.mayEnd_bind.mp h
  have hrun := (Script.mayEnd_step.mp hstep).resolve_right fun ⟨⟨_, hcode⟩, _⟩ => by
    simp [Call.refusal] at hcode
  have hdone : ∀ a : Except Failure Unit, (Script.done a).MayEnd w₁ result w' →
      (a, w₁) = (result, w') := by
    intro a ha
    obtain ⟨rfl, rfl⟩ := Script.mayEnd_done.mp ha
    rfl
  show Script.run (Script.bind _ _) w = _
  rw [Script.run_bind, hrun]
  -- what follows looks at the answer and asks for nothing
  split at hrest
  · exact hdone _ hrest
  · exact hdone _ hrest
  · exact hdone _ hrest

end Work

end Stencil
