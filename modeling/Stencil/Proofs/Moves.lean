import Stencil.Proofs.Disk.Look
import Stencil.Proofs.Run

/-!
# Stencil — the files that a script moves

A script changes files that others may see only by moving finished ones in their
place. `Script.moves` lists these moves as they are granted: the path that was
asked for, the place it led to, and the bytes that are there from then on. The
list belongs to a run and not to the world after it, in which a later move may
have hidden an earlier one.

Main results:

* `moves_bind_of_ok`, `moves_bind_of_error` — the moves of combined work;
* `Traces` — what work moves and does to its world, for each way to combine it;
* `mapM_inTurn` — the moves of work for one member of a list after the other.
-/

namespace Stencil

open Stencil.Disk

/-- A file that has been moved to a path. -/
structure Move where
  path : Path
  /-- Where the path led. -/
  place : Place
  /-- What is there from then on. -/
  bytes : List UInt8
  deriving DecidableEq, Repr

/-- The file that a request moves, if it does and it is granted. -/
def World.movesBy (w : World) : Call → List Move
  | .rename source target =>
    match w.disk.rename source target, w.disk.locate .atLink target with
    | .ok d, .ok place => ((d.bytesAt place).map (⟨target, place, ·⟩)).toList
    | _, _ => []
  | _ => []

/-- The files that a script moves, in order. -/
def Script.moves {α : Type} : Script α → World → List Move
  | done _, _ => []
  | ask call next, w => w.movesBy call ++ (next (w.perform call).1).moves (w.perform call).2

theorem Script.moves_bind {α β : Type} (s : Script α) (f : α → Script β) (w : World) :
    (s.bind f).moves w = s.moves w ++ (f (s.run w).1).moves (s.run w).2 := by
  induction s generalizing w with
  | done a => rfl
  | ask call next ih =>
    show w.movesBy call ++ ((next _).bind f).moves _ = (w.movesBy call ++ _) ++ _
    rw [ih, List.append_assoc]
    rfl

namespace Work

/-- The files that work moves, in order. -/
def moves {α : Type} (work : Work α) (w : World) : List Move :=
  Script.moves (ExceptT.run work) w

/-! ## Combined work -/

section Combined

variable {α β : Type} {work : Work α} {next : α → Work β} {w w' : World}

private theorem moves_bind (work : Work α) (next : α → Work β) (w : World) :
    (work >>= next).moves w = work.moves w ++
      Script.moves (ExceptT.bindCont next (work.runIn w).1) (work.runIn w).2 :=
  Script.moves_bind _ _ w

theorem moves_bind_of_ok {a : α} (h : work.runIn w = (.ok a, w')) :
    (work >>= next).moves w = work.moves w ++ (next a).moves w' := by
  rw [moves_bind, h]
  rfl

theorem moves_bind_of_error {failure : Failure} (h : work.runIn w = (.error failure, w')) :
    (work >>= next).moves w = work.moves w := by
  rw [moves_bind, h]
  exact List.append_nil _

/-- What follows moves nothing. -/
theorem moves_bind_of_moveless (hnext : ∀ a w, (next a).moves w = []) :
    (work >>= next).moves w = work.moves w := by
  rcases hrun : work.runIn w with ⟨_ | a, w'⟩
  · exact moves_bind_of_error hrun
  · rw [moves_bind_of_ok hrun, hnext, List.append_nil]

@[simp]
theorem moves_pure (a : α) (w : World) : (pure a : Work α).moves w = [] :=
  rfl

@[simp]
theorem moves_ofExcept {ε : Type} (toFailure : ε → Failure) (result : Except ε α) (w : World) :
    (ofExcept toFailure result).moves w = [] := by
  cases result <;> rfl

@[simp]
theorem moves_outcome (work : Work α) (w : World) : (outcome work).moves w = work.moves w := by
  show Script.moves (Script.bind (ExceptT.run work) fun a => Script.done (Except.ok a)) w = _
  rw [Script.moves_bind]
  exact List.append_nil _

theorem moves_granted (s : Script (Except Fault α)) (w : World) :
    (granted s).moves w = s.moves w := by
  show Script.moves (Script.bind s _) w = _
  rw [Script.moves_bind]
  obtain ⟨_ | _, w'⟩ := s.run w <;> exact List.append_nil _

end Combined

/-! ## What work moves and leaves -/

/-- Work leads from every world, by its moves, to one that stands in this relation
to it. -/
def Traces {α : Type} (P : World → List Move → World → Prop) (work : Work α) : Prop :=
  ∀ w, P w (work.moves w) (work.runIn w).2

/-- A relation that work keeps to when it does nothing, and that two pieces of
work keep to when both of them do. -/
structure IsTrace (P : World → List Move → World → Prop) : Prop where
  refl : ∀ w, P w [] w
  trans : ∀ {w ms w₁ ms' w₂}, P w ms w₁ → P w₁ ms' w₂ → P w (ms ++ ms') w₂

namespace Traces

variable {α β : Type} {P : World → List Move → World → Prop}

theorem of_runIn {work : Work α} (h : Traces P work) {w w' : World} {result : Except Failure α}
    (hrun : work.runIn w = (result, w')) : P w (work.moves w) w' := by
  have hw := h w
  rwa [hrun] at hw

theorem mono {Q : World → List Move → World → Prop} {work : Work α} (h : Traces P work)
    (hPQ : ∀ w ms w', P w ms w' → Q w ms w') : Traces Q work :=
  fun w => hPQ _ _ _ (h w)

theorem pure (hP : IsTrace P) (a : α) : Traces P (Pure.pure a : Work α) :=
  hP.refl

theorem throw (hP : IsTrace P) (failure : Failure) :
    Traces P (MonadExcept.throw failure : Work α) :=
  hP.refl

theorem ofExcept {ε : Type} (hP : IsTrace P) (toFailure : ε → Failure) (result : Except ε α) :
    Traces P (Work.ofExcept toFailure result) := by
  cases result with
  | ok a => exact .pure hP a
  | error e => exact .throw hP _

theorem outcome {work : Work α} (h : Traces P work) : Traces P (Work.outcome work) := by
  intro w
  rw [moves_outcome, runIn_outcome]
  exact h w

theorem granted {s : Script (Except Fault α)} (h : ∀ w, P w (s.moves w) (s.run w).2) :
    Traces P (Work.granted s) := by
  intro w
  rw [moves_granted, runIn_granted]
  exact h w

/-- What follows is asked about for values only that come up. -/
theorem bind_gives (hP : IsTrace P) {Q : α → Prop} {work : Work α} {next : α → Work β}
    (h : Traces P work) (hgives : Gives Q work) (hnext : ∀ a, Q a → Traces P (next a)) :
    Traces P (work >>= next) := by
  intro w
  have hw := h w
  rcases hrun : work.runIn w with ⟨_ | a, w₁⟩
  · rw [moves_bind_of_error hrun, runIn_bind, hrun]
    rwa [hrun] at hw
  · rw [moves_bind_of_ok hrun, runIn_bind_of_ok hrun]
    rw [hrun] at hw
    exact hP.trans hw (hnext a (hgives w a w₁ hrun) w₁)

theorem bind (hP : IsTrace P) {work : Work α} {next : α → Work β} (h : Traces P work)
    (hnext : ∀ a, Traces P (next a)) : Traces P (work >>= next) :=
  .bind_gives hP h (.any work) fun a _ => hnext a

theorem mapM (hP : IsTrace P) {f : α → Work β} {as : List α} (h : ∀ a ∈ as, Traces P (f a)) :
    Traces P (as.mapM f) := by
  induction as with
  | nil => exact .pure hP []
  | cons a as ih =>
    rw [List.mapM_cons]
    have hrest := ih fun a' ha' => h a' (List.mem_cons_of_mem a ha')
    exact .bind hP (h a (by simp)) fun b => .bind hP hrest fun bs => .pure hP (b :: bs)

end Traces

/-! ## Lists of work -/

section Lists

variable {α β : Type} {R : α → β → List Move → Prop}

/-- Moves that were made for the members of a list in turn, each with its value. -/
inductive InTurn (R : α → β → List Move → Prop) : List α → List β → List Move → Prop
  | nil : InTurn R [] [] []
  | cons {a b ms as bs ms'} (first : R a b ms) (rest : InTurn R as bs ms') :
      InTurn R (a :: as) (b :: bs) (ms ++ ms')

/-- A move was made for one of the members. -/
theorem InTurn.exists_of_move {as : List α} {bs : List β} {ms : List Move}
    (h : InTurn R as bs ms) {m : Move} (hm : m ∈ ms) :
    ∃ a b, (a, b) ∈ as.zip bs ∧ ∃ ms', R a b ms' ∧ m ∈ ms' := by
  induction h with
  | nil => simp at hm
  | @cons a b ms as bs ms' first rest ih =>
    rcases List.mem_append.mp hm with hm | hm
    · exact ⟨a, b, by simp, ms, first, hm⟩
    · obtain ⟨a', b', hmem, hR⟩ := ih hm
      exact ⟨a', b', List.mem_cons_of_mem _ hmem, hR⟩

/-- Every value has a member, and moves of its own. -/
theorem InTurn.exists_of_value {as : List α} {bs : List β} {ms : List Move}
    (h : InTurn R as bs ms) {b : β} (hb : b ∈ bs) : ∃ a ms', R a b ms' ∧ ms' ⊆ ms := by
  induction h with
  | nil => simp at hb
  | @cons a b' ms as bs ms' first rest ih =>
    rcases List.mem_cons.mp hb with rfl | hb
    · exact ⟨a, ms, first, List.subset_append_left ms ms'⟩
    · obtain ⟨a', ms'', hR, hsub⟩ := ih hb
      exact ⟨a', ms'', hR, List.Subset.trans hsub (List.subset_append_right ms ms')⟩

variable {f : α → Work β} {as : List α} {w w' : World}

/-- **A run over a list** makes the moves of its members in turn. -/
theorem mapM_inTurn {bs : List β}
    (hf : ∀ a ∈ as, ∀ w b w', (f a).runIn w = (.ok b, w') → R a b ((f a).moves w))
    (hrun : (as.mapM f).runIn w = (.ok bs, w')) : InTurn R as bs ((as.mapM f).moves w) := by
  induction as generalizing w bs with
  | nil =>
    obtain rfl := Except.ok.inj (Prod.mk.inj hrun).1
    exact .nil
  | cons a as ih =>
    obtain ⟨b, rest, w₁, hfirst, hrest, rfl⟩ := mapM_runIn_cons_ok hrun
    have hothers := ih (fun a' ha' => hf a' (List.mem_cons_of_mem a ha')) hrest
    rw [List.mapM_cons, moves_bind_of_ok hfirst, moves_bind_of_ok hrest, moves_pure,
      List.append_nil]
    exact .cons (hf a (by simp) w b w₁ hfirst) hothers

/-- A run over a list that fails at a member moves what it moves up to there. -/
theorem moves_mapM_of_error {before after : List α} {a : α} {bs : List β} {w₁ : World}
    {failure : Failure} (hbefore : (before.mapM f).runIn w = (.ok bs, w₁))
    (hrun : (f a).runIn w₁ = (.error failure, w')) :
    ((before ++ a :: after).mapM f).moves w = (before.mapM f).moves w ++ (f a).moves w₁ := by
  have hfails : ((a :: after).mapM f).runIn w₁ = (.error failure, w') := by
    rw [List.mapM_cons, runIn_bind, hrun]
  rw [List.mapM_append, moves_bind_of_ok hbefore, moves_bind_of_error hfails, List.mapM_cons,
    moves_bind_of_error hrun]

end Lists

end Work

end Stencil
