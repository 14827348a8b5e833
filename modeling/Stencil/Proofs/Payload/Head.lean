import Stencil.Payload.Declaration
import Stencil.Proofs.Text.Blank

/-!
# Stencil — the head of a declaration

A declaration is looked for by its head, which ends in the brace that opens the
body. A head is found without looking behind that brace: the same head is found
whatever the body is.

Main results:

* `dropHead_append` — a head stands before its body;
* `afterHead?_replace` — the first head of a text, with something else behind it.
-/

namespace Stencil.Payload

open Stencil.Text

/-! ## What stands behind a head -/

section Behind

variable {cs rest : List Char} {word : String}

theorem dropWord_append (word : String) (cs : List Char) :
    dropWord word (word.toList ++ cs) = some cs := by
  simp [dropWord]

theorem eq_append_of_dropWord (h : dropWord word cs = some rest) : cs = word.toList ++ rest := by
  rw [dropWord] at h
  split at h
  · rename_i hprefix
    obtain ⟨behind, rfl⟩ := List.isPrefixOf_iff_prefix.mp hprefix
    rw [List.drop_left] at h
    rw [Option.some.inj h]
  · simp at h

theorem dropWord_suffix (h : dropWord word cs = some rest) : rest <:+ cs := by
  rw [eq_append_of_dropWord h]
  exact List.suffix_append _ rest

theorem dropBlanks_suffix (h : dropBlanks cs = some rest) : rest <:+ cs := by
  cases cs with
  | nil => simp [dropBlanks] at h
  | cons c cs =>
    rw [dropBlanks] at h
    split at h
    · obtain rfl := Option.some.inj h
      exact (List.dropWhile_suffix isBlank).trans (List.suffix_cons c cs)
    · simp at h

/-- A head ends in a brace. -/
theorem exists_of_dropHead (h : dropHead cs = some rest) : ∃ s, cs = s ++ '\x7b' :: rest := by
  have hbrace : ∃ cs', dropWord "\x7b" cs' = some rest ∧ cs' <:+ cs := by
    simp only [dropHead, Option.bind_eq_bind, Option.bind_eq_some_iff] at h
    obtain ⟨cs₁, h₁, cs₂, h₂, cs₃, h₃, cs₄, h₄, cs₅, h₅, cs₆, h₆, h₇⟩ := h
    have hequals := (dropWord_suffix h₆).trans (List.dropWhile_suffix isBlank)
    exact ⟨_, h₇, (List.dropWhile_suffix isBlank).trans <| hequals.trans <|
      (dropWord_suffix h₅).trans <| (dropBlanks_suffix h₄).trans <| (dropWord_suffix h₃).trans <|
        (dropBlanks_suffix h₂).trans (dropWord_suffix h₁)⟩
  obtain ⟨cs', hdrop, s, rfl⟩ := hbrace
  exact ⟨s, by rw [eq_append_of_dropWord hdrop]; rfl⟩

theorem dropHead_suffix (h : dropHead cs = some rest) : rest <:+ cs := by
  obtain ⟨s, rfl⟩ := exists_of_dropHead h
  exact (List.suffix_cons _ _).trans (List.suffix_append _ _)

theorem afterHead?_of_dropHead {cs after : List Char} (hne : cs ≠ [])
    (h : dropHead cs = some after) : afterHead? cs = some after := by
  cases cs with
  | nil => exact absurd rfl hne
  | cons c cs => rw [afterHead?, h]

theorem afterHead?_suffix {cs rest : List Char} (h : afterHead? cs = some rest) : rest <:+ cs := by
  induction cs with
  | nil => simp [afterHead?] at h
  | cons c cs ih =>
    rw [afterHead?] at h
    split at h
    · rename_i after hafter
      obtain rfl := Option.some.inj h
      exact dropHead_suffix hafter
    · exact (ih h).trans (List.suffix_cons c cs)

end Behind

/-! ## What stands before the body -/

section Stages

variable {s r cs : List Char} {word : String}

/-- What is dropped before a brace does not depend on what stands behind the
brace. -/
theorem dropWord_append_of_mem (hs : '\x7b' ∈ s) (hword : '\x7b' ∉ word.toList)
    (h : dropWord word (s ++ r) = some cs) (r' : List Char) :
    ∃ s', '\x7b' ∈ s' ∧ cs = s' ++ r ∧ dropWord word (s ++ r') = some (s' ++ r') := by
  rw [dropWord] at h
  split at h
  · rename_i hprefix
    rw [List.isPrefixOf_iff_prefix] at hprefix
    -- the word ends before the brace
    obtain ⟨s', rfl⟩ : word.toList <+: s := by
      refine (List.prefix_or_prefix_of_prefix hprefix (List.prefix_append s r)).resolve_right ?_
      exact fun hlong => hword (hlong.subset hs)
    refine ⟨s', (List.mem_append.mp hs).resolve_left hword, ?_, ?_⟩
    · simpa using (Option.some.inj h).symm
    · simp [dropWord]
  · simp at h

theorem dropWhile_append_of_mem (hs : '\x7b' ∈ s) :
    ∃ s', '\x7b' ∈ s' ∧ ∀ r : List Char, (s ++ r).dropWhile isBlank = s' ++ r := by
  have hmem : '\x7b' ∈ s.dropWhile isBlank := by
    rw [← List.takeWhile_append_dropWhile (p := isBlank) (l := s)] at hs
    refine (List.mem_append.mp hs).resolve_left fun hfront => ?_
    have hblank := List.mem_takeWhile_imp hfront
    exact absurd hblank (by decide)
  refine ⟨_, hmem, fun r => ?_⟩
  rw [List.dropWhile_append, if_neg]
  simp only [List.isEmpty_iff]
  exact List.ne_nil_of_mem hmem

theorem dropBlanks_append_of_mem (hs : '\x7b' ∈ s) (h : dropBlanks (s ++ r) = some cs)
    (r' : List Char) :
    ∃ s', '\x7b' ∈ s' ∧ cs = s' ++ r ∧ dropBlanks (s ++ r') = some (s' ++ r') := by
  cases s with
  | nil => simp at hs
  | cons c s =>
    rw [List.cons_append, dropBlanks] at h
    split at h
    · rename_i hblank
      have hs' : '\x7b' ∈ s := by
        refine (List.mem_cons.mp hs).resolve_left ?_
        rintro rfl
        exact absurd hblank (by decide)
      obtain ⟨s', hmem, hdrop⟩ := dropWhile_append_of_mem hs'
      refine ⟨s', hmem, ?_, ?_⟩
      · rw [← hdrop r]
        exact (Option.some.inj h).symm
      · rw [List.cons_append, dropBlanks, if_pos hblank, hdrop]
    · simp at h

theorem dropBrace_append_of_mem (hs : '\x7b' ∈ s) (h : dropWord "\x7b" (s ++ r) = some cs)
    (r' : List Char) :
    ∃ s', cs = s' ++ r ∧ dropWord "\x7b" (s ++ r') = some (s' ++ r') := by
  cases s with
  | nil => simp at hs
  | cons c s =>
    rw [dropWord] at h
    split at h
    · rename_i hprefix
      obtain rfl : '\x7b' = c := by simpa using hprefix
      exact ⟨s, by simpa using (Option.some.inj h).symm, by simp [dropWord]⟩
    · simp at h

end Stages

variable {s rest rest' cs : List Char}

/-- **A head stands before its body**: whether there is one, and where it ends, is
told by the text up to the first brace. -/
theorem dropHead_append (hs : '\x7b' ∈ s) (h : dropHead (s ++ rest) = some cs)
    (rest' : List Char) : ∃ s', cs = s' ++ rest ∧ dropHead (s ++ rest') = some (s' ++ rest') := by
  simp only [dropHead, Option.bind_eq_bind, Option.bind_eq_some_iff] at h ⊢
  obtain ⟨_, h₁, _, h₂, _, h₃, _, h₄, _, h₅, _, h₆, h₇⟩ := h
  -- each stage leaves the same of both texts
  obtain ⟨s₁, hs₁, rfl, h₁'⟩ := dropWord_append_of_mem hs (by decide) h₁ rest'
  obtain ⟨s₂, hs₂, rfl, h₂'⟩ := dropBlanks_append_of_mem hs₁ h₂ rest'
  obtain ⟨s₃, hs₃, rfl, h₃'⟩ := dropWord_append_of_mem hs₂ (by decide) h₃ rest'
  obtain ⟨s₄, hs₄, rfl, h₄'⟩ := dropBlanks_append_of_mem hs₃ h₄ rest'
  obtain ⟨s₅, hs₅, rfl, h₅'⟩ := dropWord_append_of_mem hs₄ (by decide) h₅ rest'
  obtain ⟨t₅, ht₅, hdrop₅⟩ := dropWhile_append_of_mem hs₅
  rw [hdrop₅] at h₆
  obtain ⟨s₆, hs₆, rfl, h₆'⟩ := dropWord_append_of_mem ht₅ (by decide) h₆ rest'
  obtain ⟨t₆, ht₆, hdrop₆⟩ := dropWhile_append_of_mem hs₆
  rw [hdrop₆] at h₇
  obtain ⟨s₇, rfl, h₇'⟩ := dropBrace_append_of_mem ht₆ h₇ rest'
  exact ⟨s₇, rfl, _, h₁', _, h₂', _, h₃', _, h₄', _, h₅', _, by rw [hdrop₅]; exact h₆',
    by rw [hdrop₆]; exact h₇'⟩

/-- **The first head of a text** is found whatever stands behind it. -/
theorem afterHead?_replace (h : afterHead? cs = some rest) :
    ∃ before, '\x7b' ∈ before ∧ cs = before ++ rest ∧
      ∀ rest', afterHead? (before ++ rest') = some rest' := by
  induction cs with
  | nil => simp [afterHead?] at h
  | cons c cs ih =>
    rw [afterHead?] at h
    split at h
    · -- the head stands here
      rename_i after hhead
      obtain rfl := Option.some.inj h
      obtain ⟨s, hs⟩ := exists_of_dropHead hhead
      have hmem : '\x7b' ∈ s ++ ['\x7b'] := by simp
      have hsplit : c :: cs = (s ++ ['\x7b']) ++ after := by simp [hs]
      refine ⟨_, hmem, hsplit, fun rest' => ?_⟩
      rw [hsplit] at hhead
      obtain ⟨s', hs', hrest'⟩ := dropHead_append hmem hhead rest'
      obtain rfl : s' = [] := by simpa using hs'
      exact afterHead?_of_dropHead (by simp) hrest'
    · rename_i hnone
      obtain ⟨before, hmem, rfl, hbefore⟩ := ih h
      refine ⟨c :: before, List.mem_cons_of_mem c hmem, rfl, fun rest' => ?_⟩
      have hnone' : dropHead (c :: (before ++ rest')) = none := by
        by_contra hsome
        obtain ⟨cs', hcs'⟩ := Option.ne_none_iff_exists'.mp hsome
        obtain ⟨s', -, hhead⟩ := dropHead_append (s := c :: before)
          (List.mem_cons_of_mem c hmem) hcs' rest
        rw [List.cons_append, hnone] at hhead
        simp at hhead
      rw [List.cons_append, afterHead?, hnone']
      exact hbefore rest'

end Stencil.Payload
