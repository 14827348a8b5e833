import Stencil.Proofs.Region.Wrap

/-!
# Stencil — texts without marker lines

A marker line ends in dashes. A text where no dash stands at the end of a line,
and no carriage return anywhere, has no marker line then. Unlike having no
marker line, this is a property that the parts of a text hand on to the whole,
so that it can be read off how a text is put together.

Main results:

* `isUndashed_append` — texts put together;
* `isBody_of_undashed` — such a text can be wrapped.
-/

namespace Stencil.Region

open Stencil.Text

/-- Whether every dash has another character of its line behind it, and there is
no carriage return. -/
def isUndashed : List Char → Bool
  | [] => true
  | c :: rest => c != '\r' && (c != '-' || rest.head?.any (· != '\n')) && isUndashed rest

theorem isUndashed_cons {c : Char} {rest : List Char} :
    isUndashed (c :: rest) = true ↔
      c ≠ '\r' ∧ (c = '-' → ∃ d, rest.head? = some d ∧ d ≠ '\n') ∧ isUndashed rest = true := by
  simp only [isUndashed, Bool.and_eq_true, Bool.or_eq_true, bne_iff_ne, Option.any_eq_true,
    and_assoc, ne_eq, imp_iff_not_or]

/-- **Texts put together.** The dash at a seam is the matter of the first text. -/
theorem isUndashed_append {a b : List Char} (ha : isUndashed a = true) (hb : isUndashed b = true) :
    isUndashed (a ++ b) = true := by
  induction a with
  | nil => exact hb
  | cons c a ih =>
    obtain ⟨hreturn, hdash, hrest⟩ := isUndashed_cons.mp ha
    refine isUndashed_cons.mpr ⟨hreturn, fun hc => ?_, ih hrest⟩
    obtain ⟨d, hd, hne⟩ := hdash hc
    exact ⟨d, by simp [List.head?_append, hd], hne⟩

theorem isUndashed_right {a b : List Char} (h : isUndashed (a ++ b) = true) :
    isUndashed b = true := by
  induction a with
  | nil => exact h
  | cons c a ih => exact ih (isUndashed_cons.mp h).2.2

theorem isUndashed_of_forall {cs : List Char} (h : ∀ c ∈ cs, c ≠ '\r' ∧ c ≠ '-') :
    isUndashed cs = true := by
  induction cs with
  | nil => rfl
  | cons c cs ih =>
    obtain ⟨hreturn, hdash⟩ := h c (by simp)
    exact isUndashed_cons.mpr
      ⟨hreturn, fun hc => absurd hc hdash, ih fun d hd => h d (by simp [hd])⟩

/-- A stretch of one line may have dashes anywhere if something follows it. -/
theorem isUndashed_concat {cs : List Char} {q : Char} (h : ∀ c ∈ cs, c ≠ '\r' ∧ c ≠ '\n')
    (hreturn : q ≠ '\r') (hfeed : q ≠ '\n') (hdash : q ≠ '-') : isUndashed (cs ++ [q]) = true := by
  induction cs with
  | nil => exact isUndashed_of_forall (by simp [hreturn, hdash])
  | cons c cs ih =>
    have hrest : ∀ d ∈ cs, d ≠ '\r' ∧ d ≠ '\n' := fun d hd => h d (by simp [hd])
    refine isUndashed_cons.mpr ⟨(h c (by simp)).1, fun _ => ?_, ih hrest⟩
    cases cs with
    | nil => exact ⟨q, rfl, hfeed⟩
    | cons d cs => exact ⟨d, rfl, (hrest d (by simp)).2⟩

theorem isUndashed_intercalate {separator : List Char} {parts : List (List Char)}
    (hseparator : isUndashed separator = true) (h : ∀ p ∈ parts, isUndashed p = true) :
    isUndashed (separator.intercalate parts) = true := by
  induction parts with
  | nil => rfl
  | cons p parts ih =>
    have hp := h p (by simp)
    cases parts with
    | nil => simpa [List.intercalate] using hp
    | cons q parts =>
      rw [List.intercalate_cons_cons]
      exact isUndashed_append (isUndashed_append hp hseparator)
        (ih fun r hr => h r (List.mem_cons_of_mem p hr))

/-! ## The lines of such a text -/

theorem isUndashed_of_mem_lines {cs l : List Char} (h : isUndashed cs = true)
    (hl : l ∈ lines cs) : isUndashed l = true := by
  -- on the characters; a dash keeps the one behind it in its line
  fun_induction lines cs generalizing l with
  | case1 => simp at hl
  | case2 rest ih => exact absurd rfl (isUndashed_cons.mp h).1
  | case3 c rest _ hc ih =>
    obtain ⟨hreturn, -, hrest⟩ := isUndashed_cons.mp h
    rcases List.mem_cons.mp hl with rfl | hl
    · refine isUndashed_of_forall fun d hd => ?_
      obtain rfl := List.mem_singleton.mp hd
      refine ⟨hreturn, ?_⟩
      rintro rfl
      exact absurd hc (by decide)
    · exact ih hrest hl
  | case4 c rest _ _ hnil ih =>
    obtain rfl := lines_eq_nil.mp hnil
    obtain rfl := List.mem_singleton.mp hl
    exact h
  | case5 c rest _ _ first ls hlines ih =>
    obtain ⟨hreturn, hdash, hrest⟩ := isUndashed_cons.mp h
    rw [hlines] at ih
    rcases List.mem_cons.mp hl with rfl | hl
    · refine isUndashed_cons.mpr ⟨hreturn, fun hc => ?_, ih hrest (by simp)⟩
      obtain ⟨d, hd, hne⟩ := hdash hc
      -- the first line starts with the text
      obtain ⟨e, tail, rfl⟩ := List.exists_cons_of_ne_nil
        (mem_lines_isLine (hlines ▸ List.mem_cons_self : first ∈ lines rest)).ne_nil
      have hflat := flatten_lines rest
      rw [hlines] at hflat
      exact ⟨d, by rw [← hd, ← hflat]; rfl, hne⟩
    · exact ih hrest (by simp [hl])

/-- A line without a dash at its end is no line of dashes. -/
theorem bareLine_ne_of_undashed {l front : List Char} (h : isUndashed l = true) :
    bareLine l ≠ front ++ ['-'] := by
  intro hbare
  -- behind the dash there are only line ends
  obtain ⟨ends, hsplit, hends⟩ := exists_bareLine l
  rw [hsplit, hbare, List.append_assoc, List.singleton_append] at h
  obtain ⟨-, hdash, hrest⟩ := isUndashed_cons.mp (isUndashed_right h)
  obtain ⟨d, hd, hfeed⟩ := hdash rfl
  obtain ⟨rest, rfl⟩ := List.head?_eq_some_iff.mp hd
  rcases hends d (by simp) with rfl | rfl
  · exact (isUndashed_cons.mp hrest).1 rfl
  · exact hfeed rfl

theorem isPlain_of_undashed {l : List Char} (h : isUndashed l = true) : isPlain l = true := by
  have hbegin : beginMarker = "// ---- crudgen:begin generated ---".toList ++ ['-'] := by decide
  have hend : endMarker = "// ---- crudgen:end generated ---".toList ++ ['-'] := by decide
  rw [isPlain_iff, isBegin, isEnd, hbegin, hend]
  exact ⟨beq_false_of_ne (bareLine_ne_of_undashed h), beq_false_of_ne (bareLine_ne_of_undashed h)⟩

/-- **A body to wrap.** -/
theorem isBody_of_undashed {body : List Char} (h : isUndashed body = true)
    (hsubstantial : ∃ c ∈ body, c ≠ '\n') : IsBody body :=
  ⟨fun _ hl => isPlain_of_undashed (isUndashed_of_mem_lines h hl), hsubstantial⟩

end Stencil.Region
