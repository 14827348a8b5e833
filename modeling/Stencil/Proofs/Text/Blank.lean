import Mathlib.Data.List.DropRight
import Stencil.Text.Blank

/-!
# Stencil — trimmed texts

Trimming takes characters of a class away from the two ends of a text. What is
left does not start or end with one of them, so that there is nothing to trim
any more.

Main results:

* `exists_trimWhere` — a text is what is left of it between what was trimmed;
* `trimWhere_append_left`, `trimWhere_append_right` — blanks at the ends make no
  difference;
* `trimWhere_eq_self` — a text that neither starts nor ends with such a
  character is its own trimmed text.
-/

namespace Stencil.Text

/-- Trimming takes away what stands at the ends. -/
theorem exists_trimWhere (p : Char → Bool) (cs : List Char) :
    ∃ front back, cs = front ++ trimWhere p cs ++ back ∧
      (∀ c ∈ front, p c = true) ∧ ∀ c ∈ back, p c = true := by
  refine ⟨cs.takeWhile p, ((cs.dropWhile p).reverse.takeWhile p).reverse, ?_, ?_, ?_⟩
  · -- the end is trimmed in the reversed text
    rw [trimWhere, dropEndWhile, List.append_assoc, ← List.reverse_append,
      List.takeWhile_append_dropWhile, List.reverse_reverse, List.takeWhile_append_dropWhile]
  · exact fun c hc => List.mem_takeWhile_imp hc
  · intro c hc
    rw [List.mem_reverse] at hc
    exact List.mem_takeWhile_imp hc

theorem exists_trim (cs : List Char) :
    ∃ front back, cs = front ++ (trim cs ++ back) ∧ (∀ c ∈ front, isBlank c = true) ∧
      ∀ c ∈ back, isBlank c = true := by
  obtain ⟨front, back, hcs, hfront, hback⟩ := exists_trimWhere isBlank cs
  exact ⟨front, back, by rw [← List.append_assoc]; exact hcs, hfront, hback⟩

theorem mem_of_mem_trim {cs : List Char} {c : Char} (h : c ∈ trim cs) : c ∈ cs := by
  rw [trim, trimWhere, dropEndWhile, List.mem_reverse] at h
  have hdrop := (List.dropWhile_sublist _).subset h
  rw [List.mem_reverse] at hdrop
  exact (List.dropWhile_sublist _).subset hdrop

/-- A trimmed text starts with nothing that is trimmed. -/
theorem head?_trimWhere (p : Char → Bool) (cs : List Char) {c : Char}
    (h : (trimWhere p cs).head? = some c) : p c = false := by
  -- trimming the end leaves a prefix, which starts as before
  have hprefix : trimWhere p cs <+: cs.dropWhile p := by
    rw [trimWhere, dropEndWhile, ← List.reverse_suffix, List.reverse_reverse]
    exact List.dropWhile_suffix p
  obtain ⟨back, hback⟩ := hprefix
  have hhead := List.head?_dropWhile_not p cs
  rw [← hback, List.head?_append, h] at hhead
  simpa using hhead

/-- Nor does it end with anything that is trimmed. -/
theorem getLast?_trimWhere (p : Char → Bool) (cs : List Char) {c : Char}
    (h : (trimWhere p cs).getLast? = some c) : p c = false := by
  rw [trimWhere, dropEndWhile, List.getLast?_reverse] at h
  have hhead := List.head?_dropWhile_not p (cs.dropWhile p).reverse
  rw [h] at hhead
  simpa using hhead

theorem trimWhere_eq_self {p : Char → Bool} {cs : List Char}
    (hhead : ∀ c, cs.head? = some c → p c = false)
    (hlast : ∀ c, cs.getLast? = some c → p c = false) : trimWhere p cs = cs := by
  -- nothing is dropped in either direction
  have hdrop : ∀ ds : List Char, (∀ c, ds.head? = some c → p c = false) → ds.dropWhile p = ds := by
    intro ds hds
    cases ds with
    | nil => rfl
    | cons d ds => rw [List.dropWhile_cons_of_neg (by simp [hds d rfl])]
  rw [trimWhere, hdrop cs hhead, dropEndWhile,
    hdrop cs.reverse (fun c hc => hlast c (by rwa [← List.head?_reverse])), List.reverse_reverse]

theorem trimWhere_trimWhere (p : Char → Bool) (cs : List Char) :
    trimWhere p (trimWhere p cs) = trimWhere p cs :=
  trimWhere_eq_self (fun _ hc => head?_trimWhere p cs hc) fun _ hc => getLast?_trimWhere p cs hc

/-- What is trimmed anyway may stand at the front. -/
theorem trimWhere_append_left {p : Char → Bool} {front : List Char}
    (h : ∀ c ∈ front, p c = true) (cs : List Char) :
    trimWhere p (front ++ cs) = trimWhere p cs := by
  rw [trimWhere, List.dropWhile_append_of_pos h, trimWhere]

/-- And at the back. -/
theorem trimWhere_append_right {p : Char → Bool} {back : List Char}
    (h : ∀ c ∈ back, p c = true) (cs : List Char) :
    trimWhere p (cs ++ back) = trimWhere p cs := by
  have hend : ∀ ds : List Char, dropEndWhile p (ds ++ back) = dropEndWhile p ds := by
    intro ds
    rw [dropEndWhile, List.reverse_append, List.dropWhile_append_of_pos, dropEndWhile]
    exact fun c hc => h c (List.mem_reverse.mp hc)
  -- if the front trims all of the text, it goes on into what stands at the back
  rw [trimWhere, trimWhere, List.dropWhile_append]
  split
  · rename_i hnone
    rw [List.isEmpty_iff] at hnone
    rw [hnone, List.dropWhile_eq_nil_iff.mpr h]
  · exact hend _

/-- A text read backwards may be trimmed at its front first. -/
theorem trimWhere_reverse_dropEndWhile (p : Char → Bool) (cs : List Char) :
    trimWhere p (dropEndWhile p cs).reverse = trimWhere p cs.reverse := by
  have hdrop : (dropEndWhile p cs).reverse = cs.reverse.dropWhile p := by
    rw [dropEndWhile, List.reverse_reverse]
  rw [trimWhere, hdrop, List.dropWhile_idempotent, trimWhere]

theorem trimWhere_eq_nil_iff {p : Char → Bool} {cs : List Char} :
    trimWhere p cs = [] ↔ ∀ c ∈ cs, p c = true := by
  constructor
  · intro h
    obtain ⟨front, back, hcs, hfront, hback⟩ := exists_trimWhere p cs
    rw [hcs, h]
    simpa [or_imp, forall_and] using ⟨hfront, hback⟩
  · intro h
    rw [trimWhere, List.dropWhile_eq_nil_iff.mpr h]
    rfl

theorem dropEndWhile_dropEndWhile (p : Char → Bool) (cs : List Char) :
    dropEndWhile p (dropEndWhile p cs) = dropEndWhile p cs := by
  rw [dropEndWhile, dropEndWhile, List.reverse_reverse, List.dropWhile_idempotent]

/-- Trimming at the end does not look at what is trimmed in front of it. -/
theorem dropEndWhile_cons (p : Char → Bool) (c : Char) (cs : List Char) :
    dropEndWhile p (c :: dropEndWhile p cs) = dropEndWhile p (c :: cs) := by
  -- the first character is looked at only if nothing is left of the others
  have hsplit : ∀ ds : List Char, dropEndWhile p (c :: ds) =
      if dropEndWhile p ds = [] then dropEndWhile p [c] else c :: dropEndWhile p ds := by
    intro ds
    rw [dropEndWhile, List.reverse_cons, List.dropWhile_append, dropEndWhile]
    simp only [List.isEmpty_iff, List.reverse_eq_nil_iff]
    split <;> simp [dropEndWhile]
  rw [hsplit (dropEndWhile p cs), dropEndWhile_dropEndWhile, hsplit cs]

/-- A first character that stays is left where it is. -/
theorem trimWhere_cons {p : Char → Bool} {c : Char} (hc : p c = false) (cs : List Char) :
    trimWhere p (c :: cs) = c :: dropEndWhile p cs := by
  rw [trimWhere, List.dropWhile_cons_of_neg (by simp [hc]), dropEndWhile, List.reverse_cons,
    List.dropWhile_append]
  split
  · -- everything behind it is trimmed
    rename_i hnone
    rw [List.isEmpty_iff] at hnone
    rw [dropEndWhile, hnone, List.dropWhile_cons_of_neg (by simp [hc])]
    rfl
  · rw [List.reverse_append, dropEndWhile]
    rfl

end Stencil.Text
