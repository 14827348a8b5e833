import Mathlib.Data.List.Forall2
import Stencil.Text.Blank

/-!
# Stencil — texts that are alike

Two texts are alike if they are as long as each other and agree character by
character, up to a relation of characters. What is cut off a text by a class of
characters that the relation keeps is cut off the other one as well.

Main results:

* `alike_trim` — trimmed texts;
* `alike_intercalate` — joined texts.
-/

namespace Stencil.Text

open List

variable {α β : Type} {R : α → β → Prop}

section Class

variable {p : α → Bool} {q : β → Bool} {as : List α} {bs : List β}

theorem alike_dropWhile (hpq : ∀ a b, R a b → p a = q b) (h : Forall₂ R as bs) :
    Forall₂ R (as.dropWhile p) (bs.dropWhile q) := by
  induction h with
  | nil => exact .nil
  | @cons a b as bs hab hrest ih =>
    rw [dropWhile_cons, dropWhile_cons, hpq a b hab]
    split
    · exact ih
    · exact .cons hab hrest

theorem alike_takeWhile (hpq : ∀ a b, R a b → p a = q b) (h : Forall₂ R as bs) :
    Forall₂ R (as.takeWhile p) (bs.takeWhile q) := by
  induction h with
  | nil => exact .nil
  | @cons a b as bs hab hrest ih =>
    rw [takeWhile_cons, takeWhile_cons, hpq a b hab]
    split
    · exact .cons hab ih
    · exact .nil

theorem alike_nil_iff (h : Forall₂ R as bs) : as = [] ↔ bs = [] := by
  cases h <;> simp

end Class

/-- Trimming takes the same away from both texts. -/
theorem alike_trim {R : Char → Char → Prop} (hblank : ∀ c d, R c d → isBlank c = isBlank d)
    {cs ds : List Char} (h : Forall₂ R cs ds) : Forall₂ R (trim cs) (trim ds) := by
  rw [trim, trimWhere, dropEndWhile, trim, trimWhere, dropEndWhile]
  exact rel_reverse (alike_dropWhile hblank (rel_reverse (alike_dropWhile hblank h)))

theorem alike_intercalate {sep : List α} {sep' : List β} {ps : List (List α)} {qs : List (List β)}
    (hsep : Forall₂ R sep sep') (h : Forall₂ (Forall₂ R) ps qs) :
    Forall₂ R (sep.intercalate ps) (sep'.intercalate qs) := by
  induction h with
  | nil => exact .nil
  | @cons p q ps qs hpq hrest ih =>
    cases hrest with
    | nil => simpa [intercalate] using hpq
    | cons hnext hrest =>
      rw [intercalate_cons_cons, intercalate_cons_cons]
      exact rel_append (rel_append hpq hsep) ih

end Stencil.Text
