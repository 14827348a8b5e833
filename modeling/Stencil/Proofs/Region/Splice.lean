import Stencil.Proofs.Region.Locate

/-!
# Stencil — putting a region into a text

A region that takes the place of another one stands between two foreign line
ends: the one of the opening line before it, and its own last one before the
closing line. The closing line starts with a slash, so nothing can happen
there. At the opening line, a carriage return may meet a line feed that the
region starts with. The line feed then belongs to the opening line, and the
text still has its one pair of markers.

Main results:

* `CutAt.replace` — a region that leaves the seam alone is found again where
  it was put;
* `wellMarked_replace` — any region leaves a well-marked text;
* `splice_accepts_exactly` — when `splice` refuses and what it gives.
-/

namespace Stencil.Region

open Stencil.Text

/-! ## What can be a region -/

/-- A text that can stand between marker lines: it has none of its own, and
ends its last line. -/
structure IsRegion (region : List Char) : Prop where
  plain : ∀ l ∈ lines region, isPlain l = true
  ended : ∀ c, region.getLast? = some c → isLineEnd c = true

namespace MarkedLines

/-- The lines up to the opening one, and the others. -/
private theorem all_eq (m : MarkedLines) :
    m.all = (m.ahead ++ [m.opening]) ++ (m.inside ++ m.closing :: m.behind) := by
  rw [all, List.append_assoc, List.singleton_append]

/-- The three cuts of the lines are the lines of the three parts. -/
theorem lines_before (m : MarkedLines) {text : List Char} (h : lines text = m.all) :
    lines m.located.before = m.ahead ++ [m.opening] := by
  have := lines_flatten_left (h.trans m.all_eq)
  rwa [List.flatten_append, List.flatten_singleton] at this

theorem lines_from_region (m : MarkedLines) {text : List Char} (h : lines text = m.all) :
    lines (m.inside.flatten ++ (m.closing :: m.behind).flatten) =
      m.inside ++ m.closing :: m.behind := by
  rw [← List.flatten_append]
  exact lines_flatten_right (h.trans m.all_eq)

theorem lines_after (m : MarkedLines) {text : List Char} (h : lines text = m.all) :
    lines m.located.after = m.closing :: m.behind :=
  lines_flatten_right (m.lines_from_region h)

/-- The opening line ends, since another line follows. -/
theorem breaks_before (m : MarkedLines) {text : List Char} (h : lines text = m.all) :
    Breaks m.located.before (m.located.region ++ m.located.after) := by
  have := breaks_of_lines (h.trans m.all_eq) (by simp)
  rwa [List.flatten_append, List.flatten_singleton, List.flatten_append] at this

/-- An opening line is the marker and at least one more character, which ends it. -/
theorem exists_opening (m : MarkedLines) {text : List Char} (h : lines text = m.all) :
    ∃ ends c, m.opening = beginMarker ++ (ends ++ [c]) ∧
      ∀ d ∈ ends ++ [c], d = '\r' ∨ d = '\n' := by
  obtain ⟨ends, hsplit, hends⟩ := exists_bareLine m.opening
  have hbare : bareLine m.opening = beginMarker := by
    simpa [isBegin] using m.isBegin_opening
  rw [hbare] at hsplit
  rcases List.eq_nil_or_concat ends with rfl | ⟨ends, c, rfl⟩
  · -- another line follows, but the marker ends no line
    obtain ⟨front, hfront⟩ : ∃ front, beginMarker = front ++ ['-'] :=
      ⟨"// ---- crudgen:begin generated ---".toList, by decide⟩
    have hended := (m.breaks_before h).ended '-' (by
      rw [show m.located.before = m.ahead.flatten ++ m.opening from rfl, hsplit, hfront]
      simp)
    exact absurd hended (by decide)
  · rw [List.concat_eq_append] at hsplit hends
    exact ⟨ends, c, hsplit, hends⟩

end MarkedLines

theorem CutAt.isRegion {text : List Char} {l : Located} (h : CutAt text l) :
    IsRegion l.region := by
  obtain ⟨m, hlines, rfl⟩ := h
  have hcut := m.lines_from_region hlines
  refine ⟨?_, (breaks_of_lines hcut (by simp)).ended⟩
  rw [show m.located.region = m.inside.flatten from rfl, lines_flatten_left hcut]
  exact m.inside_plain

theorem isPlain_toCrlf {l : List Char} (h : IsLine l) : isPlain (toCrlf l) = isPlain l := by
  rw [isPlain, isPlain, isBegin, isBegin, isEnd, isEnd, bareLine_toCrlf h]

theorem IsRegion.toCrlf {region : List Char} (h : IsRegion region) :
    IsRegion (toCrlf region) := by
  refine ⟨?_, ?_⟩
  · intro l hl
    rw [lines_toCrlf, List.mem_map] at hl
    obtain ⟨l, hmem, rfl⟩ := hl
    rw [isPlain_toCrlf (mem_lines_isLine hmem)]
    exact h.plain l hmem
  · rw [getLast?_toCrlf]
    exact h.ended

theorem IsRegion.fitted {region : List Char} (h : IsRegion region) (before : List Char) :
    IsRegion (fitted before region) := by
  rw [Region.fitted]
  split
  · exact h.toCrlf
  · exact h

/-! ## The seams of a new region -/

/-- A closing line starts with the slash of its marker. -/
theorem head?_of_isEnd {l : List Char} (h : isEnd l = true) : l.head? = some '/' := by
  rw [isEnd, beq_iff_eq] at h
  obtain ⟨rest, hrest⟩ := bareLine_prefix l
  rw [← hrest, h]
  rfl

/-- A line with a line feed more at its end opens a region if it did without. -/
theorem isBegin_concat_lf {l : List Char} (h : isBegin l = true) :
    isBegin (l ++ ['\n']) = true := by
  rwa [isBegin, bareLine_concat_lf]

/-- The lines from a new region on. -/
private theorem lines_region_after {m : MarkedLines} {text f : List Char}
    (h : lines text = m.all) (hended : ∀ c, f.getLast? = some c → isLineEnd c = true) :
    lines (f ++ m.located.after) = lines f ++ m.closing :: m.behind := by
  -- no line feed follows, so the last line of the region ends where it did
  have hseam : Breaks f m.located.after := by
    refine ⟨hended, ?_⟩
    rintro ⟨-, hhead⟩
    rw [show m.located.after = m.closing ++ m.behind.flatten from rfl, List.head?_append,
      head?_of_isEnd m.isEnd_closing] at hhead
    simp at hhead
  rw [lines_append hseam, m.lines_after h]

/-- **A region that leaves the seam alone** is found again where it was put. -/
theorem CutAt.replace {text f : List Char} {l : Located} (h : CutAt text l) (hf : IsRegion f)
    (hseam : ¬ (l.before.getLast? = some '\r' ∧ f.head? = some '\n')) :
    CutAt (l.before ++ f ++ l.after) ⟨l.before, f, l.after⟩ := by
  obtain ⟨m, hlines, rfl⟩ := h
  have hbreaks : Breaks m.located.before (f ++ m.located.after) := by
    refine ⟨(m.breaks_before hlines).ended, ?_⟩
    -- without any lines between, the slash of the closing line is next
    cases f with
    | nil =>
      rintro ⟨-, hhead⟩
      rw [List.nil_append, show m.located.after = m.closing ++ m.behind.flatten from rfl,
        List.head?_append, head?_of_isEnd m.isEnd_closing] at hhead
      simp at hhead
    | cons c f => exact hseam
  refine ⟨{ m with inside := lines f, inside_plain := hf.plain }, ?_, ?_⟩
  · rw [List.append_assoc, lines_append hbreaks, m.lines_before hlines,
      lines_region_after hlines hf.ended]
    simp [MarkedLines.all]
  · simp [MarkedLines.located, flatten_lines]

/-- **A line feed that meets a carriage return** goes over to the opening
line. -/
theorem CutAt.replace_joined {text f : List Char} {l : Located} (h : CutAt text l)
    (hf : IsRegion ('\n' :: f)) (hcr : l.before.getLast? = some '\r') :
    CutAt (l.before ++ '\n' :: f ++ l.after) ⟨l.before ++ ['\n'], f, l.after⟩ := by
  obtain ⟨m, hlines, rfl⟩ := h
  have hopening : m.opening ≠ [] := by
    intro hnil
    exact absurd m.isBegin_opening (by rw [hnil]; decide)
  -- the carriage return is the one of the opening line
  have hlast : m.opening.getLast? = some '\r' := by
    rw [← hcr, show m.located.before = m.ahead.flatten ++ m.opening from rfl,
      List.getLast?_append, List.getLast?_eq_some_getLast hopening]
    rfl
  have hjoined := lines_append_lf (m.lines_before hlines) hlast
  -- the line feed was a line by itself, and the others are as they were
  have hplain : ∀ x ∈ lines f, isPlain x = true := by
    intro x hx
    refine hf.plain x ?_
    rw [lines_cons_end (by decide) (by simp)]
    exact List.mem_cons_of_mem _ hx
  have hended : ∀ c, f.getLast? = some c → isLineEnd c = true := by
    intro c hc
    exact hf.ended c (by rw [List.getLast?_cons, hc]; rfl)
  have hbreaks : Breaks (m.located.before ++ ['\n']) (f ++ m.located.after) :=
    ⟨by simp [isLineEnd], by simp⟩
  refine ⟨{ m with
      opening := m.opening ++ ['\n']
      inside := lines f
      isBegin_opening := isBegin_concat_lf m.isBegin_opening
      inside_plain := hplain }, ?_, ?_⟩
  · rw [show m.located.before ++ '\n' :: f ++ m.located.after =
      (m.located.before ++ ['\n']) ++ (f ++ m.located.after) by simp,
      lines_append hbreaks, hjoined, lines_region_after hlines hended]
    simp [MarkedLines.all]
  · simp [MarkedLines.located, flatten_lines]

/-- **Any region leaves a well-marked text.** -/
theorem wellMarked_replace {text f : List Char} {l : Located} (h : CutAt text l)
    (hf : IsRegion f) : WellMarked (l.before ++ f ++ l.after) := by
  -- only a carriage return and a line feed can join
  by_cases hseam : l.before.getLast? = some '\r' ∧ f.head? = some '\n'
  · obtain ⟨hcr, hhead⟩ := hseam
    cases f with
    | nil => simp at hhead
    | cons c f =>
      obtain rfl : c = '\n' := by simpa using hhead
      exact (h.replace_joined hf hcr).wellMarked
  · exact (h.replace hf hseam).wellMarked

/-! ## Splicing -/

/-- `splice` gives a text exactly if both texts can be cut, and then this one. -/
theorem splice_eq_ok_iff {e g out : List Char} :
    splice e g = .ok out ↔ ∃ old new, CutAt e old ∧ CutAt g new ∧
      out = old.before ++ fitted old.before new.region ++ old.after := by
  constructor
  · intro h
    rw [splice] at h
    split at h
    · simp at h
    · rename_i new hnew
      split at h
      · simp at h
      · rename_i old hold
        exact ⟨old, new, locate_eq_ok_iff.mp hold, locate_eq_ok_iff.mp hnew,
          (Except.ok.inj h).symm⟩
  · rintro ⟨old, new, hold, hnew, rfl⟩
    rw [splice, locate_eq_ok_iff.mpr hold, locate_eq_ok_iff.mpr hnew]

theorem exists_splice_iff {e g : List Char} :
    (∃ out, splice e g = .ok out) ↔ WellMarked e ∧ WellMarked g := by
  constructor
  · rintro ⟨out, h⟩
    obtain ⟨old, new, hold, hnew, -⟩ := splice_eq_ok_iff.mp h
    exact ⟨hold.wellMarked, hnew.wellMarked⟩
  · rintro ⟨he, hg⟩
    obtain ⟨old, hold⟩ := exists_locate_iff.mpr he
    obtain ⟨new, hnew⟩ := exists_locate_iff.mpr hg
    exact ⟨_, splice_eq_ok_iff.mpr
      ⟨old, new, locate_eq_ok_iff.mp hold, locate_eq_ok_iff.mp hnew, rfl⟩⟩

/-- A generated text without a region is refused whatever the existing text
is. -/
theorem splice_eq_error_generated {e g : List Char} (hg : ¬ WellMarked g) :
    ∃ flaw, splice e g = .error (.generated flaw) := by
  cases hnew : locate g with
  | ok new => exact absurd (wellMarked_of_locate hnew) hg
  | error flaw => exact ⟨flaw, by rw [splice, hnew]⟩

theorem splice_eq_error_existing {e g : List Char} (hg : WellMarked g) (he : ¬ WellMarked e) :
    ∃ flaw, splice e g = .error (.existing flaw) := by
  obtain ⟨new, hnew⟩ := exists_locate_iff.mpr hg
  cases hold : locate e with
  | ok old => exact absurd (wellMarked_of_locate hold) he
  | error flaw => exact ⟨flaw, by rw [splice, hnew, hold]⟩

/-- What comes out of `splice` can be spliced into again. -/
theorem wellMarked_splice {e g out : List Char} (h : splice e g = .ok out) : WellMarked out := by
  obtain ⟨old, new, hold, hnew, rfl⟩ := splice_eq_ok_iff.mp h
  exact wellMarked_replace hold (hnew.isRegion.fitted old.before)

/-- **Splicing takes exactly the well-marked texts and changes nothing but the
region.** A generated text that is not well-marked is refused first, and then
an existing one. The parts around the region stay as they are; the new region
comes in as it stands, or with CRLF in place of every CRLF and every other
line feed if there is a CRLF before it. What comes out is well-marked again,
so every well-marked text can be spliced into it. -/
theorem splice_accepts_exactly (e g : List Char) :
    ((∃ out, splice e g = .ok out) ↔ WellMarked e ∧ WellMarked g) ∧
    (¬ WellMarked g → ∃ flaw, splice e g = .error (.generated flaw)) ∧
    (WellMarked g → ¬ WellMarked e → ∃ flaw, splice e g = .error (.existing flaw)) ∧
    ∀ out, splice e g = .ok out →
      ∃ old new : Located, CutAt e old ∧ CutAt g new ∧ e = old.text ∧ g = new.text ∧
        (¬ ['\r', '\n'] <:+: old.before → out = old.before ++ new.region ++ old.after) ∧
        (['\r', '\n'] <:+: old.before → out = old.before ++ toCrlf new.region ++ old.after) ∧
        ∀ g', WellMarked g' → ∃ out', splice out g' = .ok out' := by
  refine ⟨exists_splice_iff, splice_eq_error_generated, splice_eq_error_existing, ?_⟩
  intro out h
  have hagain := wellMarked_splice h
  obtain ⟨old, new, hold, hnew, rfl⟩ := splice_eq_ok_iff.mp h
  refine ⟨old, new, hold, hnew, hold.text_eq, hnew.text_eq, ?_, ?_, ?_⟩
  · intro hcrlf
    rw [fitted, if_neg (by simpa [hasCrlf_iff] using hcrlf)]
  · intro hcrlf
    rw [fitted, if_pos (hasCrlf_iff.mpr hcrlf)]
  · exact fun g' hg' => exists_splice_iff.mpr ⟨hagain, hg'⟩

end Stencil.Region
