import Stencil.Proofs.Payload.Tidy

/-!
# Stencil — comments and the blanks around a line

A line loses its comments character by character. The blanks around the line
come out as blanks around what is left, so that a line may be trimmed before
its comments are taken out or after.

Main results:

* `stripComments_code`, `stripComments_literal`, `stripComments_block` — one
  character;
* `stripComments_trim` — a trimmed line.
-/

namespace Stencil.Payload

open Stencil.Text Cutting

/-! ## Comments on one line -/

/-- Whether a comment starts here. -/
def opensComment : List Char → Bool
  | c :: d :: _ => c == '/' && (d == '/' || d == '*')
  | _ => false

/-- Whether a block comment ends here. -/
def closesComment : List Char → Bool
  | c :: d :: _ => c == '*' && d == '/'
  | _ => false

/-- Nothing that a mark of a comment could end with comes first. -/
def FreeStart (cs : List Char) : Prop :=
  ∀ c, cs.head? = some c → c ≠ '/' ∧ c ≠ '*'

section Steps

variable {c q : Char} {rest : List Char}

theorem opensComment_iff :
    opensComment (c :: rest) = true ↔
      c = '/' ∧ ∃ rest', rest = '/' :: rest' ∨ rest = '*' :: rest' := by
  cases rest with
  | nil => simp [opensComment]
  | cons d rest' => simp [opensComment, exists_or]

theorem closesComment_iff :
    closesComment (c :: rest) = true ↔ c = '*' ∧ ∃ rest', rest = '/' :: rest' := by
  cases rest with
  | nil => simp [closesComment]
  | cons d rest' => simp [closesComment]

theorem opensComment_eq_false (hline : ∀ rest', c = '/' → rest = '/' :: rest' → False)
    (hblock : ∀ rest', c = '/' → rest = '*' :: rest' → False) :
    opensComment (c :: rest) = false := by
  by_contra hmark
  obtain ⟨hslash, rest', hrest | hrest⟩ := opensComment_iff.mp (by simpa using hmark)
  · exact hline rest' hslash hrest
  · exact hblock rest' hslash hrest

theorem closesComment_eq_false (h : ∀ rest', c = '*' → rest = '/' :: rest' → False) :
    closesComment (c :: rest) = false := by
  by_contra hmark
  obtain ⟨hstar, rest', hrest⟩ := closesComment_iff.mp (by simpa using hmark)
  exact h rest' hstar hrest

theorem opensComment_append {tail : List Char} (h : FreeStart tail) :
    opensComment (c :: (rest ++ tail)) = opensComment (c :: rest) := by
  -- only the next character is looked at, which may be the first of the tail
  cases rest with
  | nil =>
    cases tail with
    | nil => rfl
    | cons d tail =>
      obtain ⟨hslash, hstar⟩ := h d rfl
      simp [opensComment, hslash, hstar]
  | cons d rest => rfl

theorem closesComment_append {tail : List Char} (h : FreeStart tail) :
    closesComment (c :: (rest ++ tail)) = closesComment (c :: rest) := by
  -- as for the mark that opens
  cases rest with
  | nil =>
    cases tail with
    | nil => rfl
    | cons d tail => simp [closesComment, (h d rfl).1]
  | cons d rest => rfl

theorem stripComments_code (h : opensComment (c :: rest) = false) :
    stripComments .code (c :: rest) =
      (c :: (stripComments (if isQuote c then .literal c else .code) rest).1,
        (stripComments (if isQuote c then .literal c else .code) rest).2) := by
  rw [stripComments]
  · rintro rest' rfl rfl
    simp [opensComment] at h
  · rintro rest' rfl rfl
    simp [opensComment] at h

theorem stripComments_block (h : closesComment (c :: rest) = false) :
    stripComments .blockComment (c :: rest) = stripComments .blockComment rest := by
  rw [stripComments]
  rintro rest' rfl rfl
  simp [closesComment] at h

theorem stripComments_literal (h : c = '\\' → rest = []) :
    stripComments (.literal q) (c :: rest) =
      (c :: (stripComments (if c = q then .code else .literal q) rest).1,
        (stripComments (if c = q then .code else .literal q) rest).2) := by
  rw [stripComments]
  rintro d rest' rfl rfl
  simp at h

end Steps

/-! ## Blanks around a line -/

section Blanks

variable {blanks : List Char} {rest : List Char}

theorem opensComment_of_ne {c : Char} (h : c ≠ '/') : opensComment (c :: rest) = false := by
  by_contra hopens
  exact h (opensComment_iff.mp (by simpa using hopens)).1

theorem closesComment_of_ne {c : Char} (h : c ≠ '*') : closesComment (c :: rest) = false := by
  by_contra hcloses
  exact h (closesComment_iff.mp (by simpa using hcloses)).1

/-- Blanks are kept, except in a comment. -/
theorem stripComments_blanks (region : Region) (h : ∀ c ∈ blanks, isBlank c = true) :
    ∃ kept, (∀ c ∈ kept, isBlank c = true) ∧
      stripComments region blanks = (kept, decide (region = .blockComment)) := by
  -- a blank is no mark, but it may be the quote that ends a literal
  induction blanks generalizing region with
  | nil => cases region <;> exact ⟨[], by simp, rfl⟩
  | cons c blanks ih =>
    have hc : isBlank c = true := h c (by simp)
    have hblanks : ∀ d ∈ blanks, isBlank d = true := fun d hd => h d (by simp [hd])
    cases region with
    | code =>
      obtain ⟨kept, hkept, hrest⟩ := ih .code hblanks
      refine ⟨c :: kept, by simpa [hc] using hkept, ?_⟩
      rw [stripComments_code (opensComment_of_ne (ne_of_isBlank hc (by decide))),
        (IsOrdinary.of_isBlank hc).notQuote]
      simp [hrest]
    | literal q =>
      have hne : c ≠ '\\' := ne_of_isBlank hc (by decide)
      by_cases hq : c = q
      · obtain ⟨kept, hkept, hrest⟩ := ih .code hblanks
        refine ⟨c :: kept, by simpa [hc] using hkept, ?_⟩
        simp [stripComments_literal fun h => (hne h).elim, if_pos hq, hrest]
      · obtain ⟨kept, hkept, hrest⟩ := ih (.literal q) hblanks
        refine ⟨c :: kept, by simpa [hc] using hkept, ?_⟩
        simp [stripComments_literal fun h => (hne h).elim, if_neg hq, hrest]
    | lineComment => exact ⟨[], by simp, rfl⟩
    | blockComment =>
      obtain ⟨kept, hkept, hrest⟩ := ih .blockComment hblanks
      refine ⟨kept, hkept, ?_⟩
      rw [stripComments_block (closesComment_of_ne (ne_of_isBlank hc (by decide))), hrest]

/-- Blanks at the end of a line come out as blanks at the end. -/
theorem stripComments_append_blanks (region : Region) (cs : List Char)
    (h : ∀ c ∈ blanks, isBlank c = true) :
    ∃ kept, (∀ c ∈ kept, isBlank c = true) ∧
      stripComments region (cs ++ blanks) =
        ((stripComments region cs).1 ++ kept, (stripComments region cs).2) := by
  have hfree : FreeStart blanks := by
    intro c hc
    have hblank := h c (List.mem_of_mem_head? hc)
    exact ⟨ne_of_isBlank hblank (by decide), ne_of_isBlank hblank (by decide)⟩
  -- on the branches that the line takes before the blanks come
  fun_induction stripComments region cs with
  | case1 =>
    obtain ⟨kept, hkept, hblanks⟩ := stripComments_blanks .blockComment h
    exact ⟨kept, hkept, by simpa using hblanks⟩
  | case2 region hregion =>
    obtain ⟨kept, hkept, hblanks⟩ := stripComments_blanks region h
    exact ⟨kept, hkept, by simpa [show region ≠ .blockComment from hregion] using hblanks⟩
  | case3 cs hcs =>
    refine ⟨[], by simp, ?_⟩
    cases hall : cs ++ blanks <;> rfl
  | case4 rest ih => exact ih
  | case5 c rest hclose ih =>
    obtain ⟨kept, hkept, hrest⟩ := ih
    refine ⟨kept, hkept, ?_⟩
    rw [List.cons_append, stripComments_block
      ((closesComment_append hfree).trans (closesComment_eq_false hclose)), hrest]
  | case6 q c rest code isOpen hstrip ih =>
    obtain ⟨kept, hkept, hrest⟩ := ih
    refine ⟨kept, hkept, ?_⟩
    simp only [List.cons_append, stripComments, hrest, hstrip]
  | case7 q c rest hescape code isOpen hstrip ih =>
    by_cases hc : c = '\\'
    · -- a backslash at the end takes the first blank with it
      have hnil : rest = [] := by
        cases rest with
        | nil => rfl
        | cons d rest => exact (hescape d rest hc rfl).elim
      subst hnil
      have hself : stripComments (if c = q then .code else .literal q) [] = ([], false) := by
        split <;> rfl
      obtain ⟨rfl, rfl⟩ := Prod.mk.inj (hself.symm.trans hstrip)
      cases blanks with
      | nil =>
        refine ⟨[], by simp, ?_⟩
        rw [List.append_nil, stripComments_literal fun _ => rfl, hself]
      | cons b blanks =>
        obtain ⟨kept, hkept, hblanks⟩ := stripComments_blanks (.literal q)
          fun d hd => h d (List.mem_cons_of_mem b hd)
        refine ⟨b :: kept, by simpa [h b (by simp)] using hkept, ?_⟩
        subst hc
        simp [stripComments, hblanks]
    · obtain ⟨kept, hkept, hrest⟩ := ih
      refine ⟨kept, hkept, ?_⟩
      rw [List.cons_append, stripComments_literal fun h => (hc h).elim, hrest, hstrip]
      rfl
  | case8 rest => exact ⟨[], by simp, rfl⟩
  | case9 rest ih => exact ih
  | case10 c rest hline hblock code isOpen hstrip ih =>
    obtain ⟨kept, hkept, hrest⟩ := ih
    refine ⟨kept, hkept, ?_⟩
    rw [List.cons_append, stripComments_code
      ((opensComment_append hfree).trans (opensComment_eq_false hline hblock)), hrest, hstrip]
    rfl

/-- Blanks at the start of a line are kept in code and dropped in a comment. -/
theorem stripComments_code_blanks_append (cs : List Char) (h : ∀ c ∈ blanks, isBlank c = true) :
    stripComments .code (blanks ++ cs) =
      (blanks ++ (stripComments .code cs).1, (stripComments .code cs).2) := by
  -- no comment and no literal starts at a blank
  induction blanks with
  | nil => rfl
  | cons c blanks ih =>
    have hc : isBlank c = true := h c (by simp)
    rw [List.cons_append, stripComments_code (opensComment_of_ne (ne_of_isBlank hc (by decide))),
      (IsOrdinary.of_isBlank hc).notQuote]
    simp [ih fun d hd => h d (by simp [hd])]

theorem stripComments_block_blanks_append (cs : List Char) (h : ∀ c ∈ blanks, isBlank c = true) :
    stripComments .blockComment (blanks ++ cs) = stripComments .blockComment cs := by
  induction blanks with
  | nil => rfl
  | cons c blanks ih =>
    have hc : isBlank c = true := h c (by simp)
    rw [List.cons_append,
      stripComments_block (closesComment_of_ne (ne_of_isBlank hc (by decide)))]
    exact ih fun d hd => h d (by simp [hd])

/-- **A line may be trimmed before its comments are taken out.** -/
theorem stripComments_trim {region : Region} (hregion : region = .code ∨ region = .blockComment)
    (raw : List Char) :
    ∃ front back, (∀ c ∈ front, isBlank c = true) ∧ (∀ c ∈ back, isBlank c = true) ∧
      stripComments region raw =
        (front ++ (stripComments region (trim raw)).1 ++ back,
          (stripComments region (trim raw)).2) := by
  obtain ⟨front, back, hraw, hfront, hback⟩ := exists_trim raw
  obtain ⟨kept, hkept, hstrip⟩ := stripComments_append_blanks region (trim raw) hback
  -- in code the blanks in front stay, in a comment they go with it
  rcases hregion with rfl | rfl
  · refine ⟨front, kept, hfront, hkept, ?_⟩
    conv_lhs => rw [hraw, stripComments_code_blanks_append _ hfront, hstrip]
    rw [List.append_assoc]
  · refine ⟨[], kept, by simp, hkept, ?_⟩
    conv_lhs => rw [hraw, stripComments_block_blanks_append _ hfront, hstrip]
    rw [List.nil_append]

end Blanks

end Stencil.Payload
