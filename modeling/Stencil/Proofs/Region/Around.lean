import Stencil.Proofs.Region.Wrap

/-!
# Stencil — a wrapped body among other text

A generated file is a wrapped body with hand-written text before and after it. When
the same body is wrapped again and spliced in, the text stays what it is under two
conditions. The text before the body has to end its last line, for otherwise the
opening marker of the body is no line. And if there is a CRLF in that text, the line
ends of the region have to be CRLFs already, since they are written so. Both
conditions are needed: the opening line of a wrapped body ends in a line feed alone,
which is what no region written with CRLFs can hold.

Main results:

* `splice_around` — what comes of it when the text before ends its last line;
* `splice_around_iff` — when the text stays what it is.
-/

namespace Stencil.Region

open Stencil.Text

/-! ## Whole lines -/

/-- Whether the text is empty or ends its last line. -/
def isWhole (text : List Char) : Bool :=
  text.getLast?.all isLineEnd

theorem isWhole_iff {text : List Char} :
    isWhole text = true ↔ ∀ c, text.getLast? = some c → isLineEnd c = true := by
  rw [isWhole, Option.all_eq_true]

/-- A slash joins no line end. -/
theorem breaks_marker {before rest : List Char} (h : isWhole before = true) :
    Breaks before (beginMarker ++ rest) := by
  refine ⟨isWhole_iff.mp h, ?_⟩
  rintro ⟨-, hhead⟩
  exact absurd (Option.some.inj hhead) (by decide)

/-- The line feed of the opening line has no carriage return before it. -/
theorem hasCrlf_append_opening (before : List Char) :
    hasCrlf (before ++ (beginMarker ++ ['\n'])) = hasCrlf before := by
  fun_induction hasCrlf before with
  | case1 => decide
  | case2 rest => rfl
  | case3 c rest hcrlf ih =>
    rw [List.cons_append, hasCrlf, ih]
    intro tail hc htail
    cases rest with
    | nil => exact absurd (List.cons.inj htail).1 (by decide)
    | cons d rest => exact hcrlf rest hc (by rw [(List.cons.inj htail).1])

/-! ## Lines that are seen -/

section Lines

variable {text opening closing : List Char} {ahead inside behind : List (List Char)}

/-- **A well-marked text is cut at the marker lines that are seen**: there are no
others. -/
theorem cutAt_of_lines (h : WellMarked text)
    (hlines : lines text = ahead ++ opening :: (inside ++ closing :: behind))
    (hopening : isBegin opening = true) (hclosing : isEnd closing = true) :
    CutAt text ⟨ahead.flatten ++ opening, inside.flatten, closing ++ behind.flatten⟩ := by
  have hbegins := h.begins
  have hends := h.ends
  simp only [hlines, List.countP_append, List.countP_cons, hopening, hclosing,
    not_isEnd_of_isBegin hopening, not_isBegin_of_isEnd hclosing, Bool.false_eq_true, if_false,
    if_true] at hbegins hends
  -- the two lines use up both counts
  have hplain : ∀ ls : List (List Char), ls.countP isBegin = 0 → ls.countP isEnd = 0 →
      ∀ l ∈ ls, isPlain l = true := fun ls hbegin hend l hl =>
    isPlain_iff.mpr ⟨by simpa using List.countP_eq_zero.mp hbegin l hl,
      by simpa using List.countP_eq_zero.mp hend l hl⟩
  exact ⟨⟨ahead, opening, inside, closing, behind, hopening, hclosing,
    hplain ahead (by omega) (by omega), hplain inside (by omega) (by omega),
    hplain behind (by omega) (by omega)⟩, hlines, rfl⟩

/-- A list with one member of a kind is cut at that member in one way. -/
private theorem eq_of_cut {α : Type} {p : α → Bool} {xs xs' ys ys' : List α} {a a' : α}
    (h : xs ++ a :: ys = xs' ++ a' :: ys') (hcount : (xs ++ a :: ys).countP p = 1)
    (ha : p a = true) (ha' : p a' = true) : a = a' ∧ ys = ys' := by
  induction xs generalizing xs' with
  | nil =>
    cases xs' with
    | nil => exact List.cons.inj h
    | cons x xs' =>
      -- the other member would be a second one
      obtain ⟨rfl, rfl⟩ := List.cons.inj h
      simp [List.countP_append, ha, ha'] at hcount
  | cons x xs ih =>
    cases xs' with
    | nil =>
      obtain ⟨rfl, rfl⟩ := List.cons.inj h
      simp [List.countP_append, ha, ha'] at hcount
    | cons x' xs' =>
      obtain ⟨rfl, htail⟩ := List.cons.inj h
      refine ih htail ?_
      have hmember : 0 < (xs ++ a :: ys).countP p :=
        List.countP_pos_iff.mpr ⟨a, by simp, ha⟩
      rw [List.cons_append, List.countP_cons] at hcount
      omega

/-- What stands behind the region starts with the closing line that is seen. -/
theorem CutAt.after_eq {l : Located} (h : CutAt text l)
    (hlines : lines text = inside ++ closing :: behind) (hclosing : isEnd closing = true) :
    l.after = closing ++ behind.flatten := by
  have hcount := h.wellMarked.ends
  obtain ⟨m, hall, rfl⟩ := h
  rw [hlines] at hall hcount
  have hcut : inside ++ closing :: behind =
      (m.ahead ++ m.opening :: m.inside) ++ m.closing :: m.behind := by
    rw [hall, MarkedLines.all, List.append_assoc, List.cons_append]
  obtain ⟨rfl, rfl⟩ := eq_of_cut hcut hcount hclosing m.isEnd_closing
  rfl

theorem CutAt.unique {l l' : Located} (h : CutAt text l) (h' : CutAt text l') : l = l' :=
  Except.ok.inj ((locate_eq_ok_iff.mpr h).symm.trans (locate_eq_ok_iff.mpr h'))

end Lines

/-! ## Splicing a body in again -/

section Around

variable {before body after : List Char}

theorem lines_around (h : isWhole before = true) :
    lines (before ++ wrap body ++ after) =
      lines before ++ (beginMarker ++ ['\n']) ::
        (lines (bodyRegion body) ++ (endMarker ++ ['\n']) :: lines after) := by
  have hopening : lines (beginMarker ++ ['\n']) = [beginMarker ++ ['\n']] := by decide
  rw [lines_wrap, lines_append (breaks_marker h), hopening, List.append_assoc]
  rfl

theorem cutAt_around (h : isWhole before = true)
    (hmarked : WellMarked (before ++ wrap body ++ after)) :
    CutAt (before ++ wrap body ++ after)
      ⟨before ++ (beginMarker ++ ['\n']), bodyRegion body, endMarker ++ ['\n'] ++ after⟩ := by
  have hcut := cutAt_of_lines hmarked (lines_around h) isBegin_opening isEnd_closing
  rwa [flatten_lines, flatten_lines, flatten_lines] at hcut

theorem cutAt_wrap_of_wellMarked (h : WellMarked (wrap body)) :
    CutAt (wrap body) ⟨beginMarker ++ ['\n'], bodyRegion body, endMarker ++ ['\n']⟩ := by
  have hmarked : WellMarked ([] ++ wrap body ++ []) := by simpa using h
  simpa using cutAt_around rfl hmarked

/-- The body stands in a well-marked text, so it has no marker line. -/
theorem wellMarked_wrap (h : isWhole before = true)
    (hmarked : WellMarked (before ++ wrap body ++ after)) : WellMarked (wrap body) := by
  have hregion := (cutAt_around h hmarked).isRegion
  exact (cutAt_wrap_of_plain hregion.plain).wellMarked

/-- **The body goes in where it was**, with its line ends as those in the text
before it. -/
theorem splice_around (h : isWhole before = true)
    (hmarked : WellMarked (before ++ wrap body ++ after)) :
    splice (before ++ wrap body ++ after) (wrap body) =
      .ok (before ++ (beginMarker ++ ['\n']) ++ fitted before (bodyRegion body) ++
        (endMarker ++ ['\n'] ++ after)) := by
  refine splice_eq_ok_iff.mpr ⟨_, _, cutAt_around h hmarked,
    cutAt_wrap_of_wellMarked (wellMarked_wrap h hmarked), ?_⟩
  simp only [fitted, hasCrlf_append_opening]

/-- A marker ends in a dash, and not in a line end. -/
private theorem getLast?_beginMarker (front : List Char) :
    (front ++ beginMarker).getLast? = some '-' := by
  have hdash : beginMarker = "// ---- crudgen:begin generated ---".toList ++ ['-'] := by decide
  rw [hdash, ← List.append_assoc, List.getLast?_concat]

/-- An opening line that ends where the opening line of the body does is that line, so
the lines ahead of it are the text before. -/
theorem flatten_ahead_eq {text : List Char} {m : MarkedLines} (hlines : lines text = m.all)
    (hbefore : m.located.before = before ++ (beginMarker ++ ['\n'])) :
    m.ahead.flatten = before := by
  obtain ⟨ends, c, hopening, hends⟩ := m.exists_opening hlines
  rw [show m.located.before = m.ahead.flatten ++ m.opening from rfl, hopening,
    ← List.append_assoc, ← List.append_assoc, ← List.append_assoc] at hbefore
  obtain ⟨hfront, -⟩ := List.append_inj' hbefore rfl
  rcases List.eq_nil_or_concat ends with rfl | ⟨ends, d, rfl⟩
  · rw [List.append_nil] at hfront
    exact List.append_cancel_right hfront
  · have hlast := getLast?_beginMarker before
    rw [← hfront, List.concat_eq_append, ← List.append_assoc, List.getLast?_concat] at hlast
    obtain rfl := Option.some.inj hlast
    exact absurd (hends '-' (by simp)) (by decide)

/-- The region that ends where the body's does is the body's: with CRLFs it would be
longer, and reach into the opening line. -/
theorem fitted_eq_of_append {front : List Char}
    (h : front ++ fitted front (bodyRegion body) =
      before ++ (beginMarker ++ ['\n']) ++ bodyRegion body) :
    fitted front (bodyRegion body) = bodyRegion body := by
  rw [fitted] at h ⊢
  split at h
  · rename_i hcrlf
    rw [if_pos hcrlf]
    obtain ⟨more, hmore⟩ : bodyRegion body <:+ toCrlf (bodyRegion body) :=
      List.suffix_of_suffix_length_le ⟨_, h.symm⟩ ⟨_, rfl⟩ (length_le_toCrlf _)
    rcases List.eq_nil_or_concat more with rfl | ⟨more, c, rfl⟩
    · exact hmore.symm
    · -- the character before the line feed would be both a dash and a carriage return
      rw [← hmore, ← List.append_assoc] at h
      have hfront := List.append_cancel_right h
      rw [List.concat_eq_append, ← List.append_assoc, ← List.append_assoc] at hfront
      obtain ⟨hdash, hc⟩ := List.append_inj' hfront rfl
      obtain rfl := List.singleton_injective hc
      rw [List.concat_eq_append, List.append_assoc, List.singleton_append] at hmore
      have hreturn := getLast?_of_toCrlf hmore.symm
      have hlast := getLast?_beginMarker before
      rw [← hdash, List.getLast?_append, hreturn] at hlast
      exact absurd (Option.some.inj hlast) (by decide)
  · rename_i hcrlf
    rw [if_neg hcrlf]

/-- **When a body that is spliced in again leaves the text what it is.** -/
theorem splice_around_iff (hmarked : WellMarked (before ++ wrap body ++ after)) :
    splice (before ++ wrap body ++ after) (wrap body) = .ok (before ++ wrap body ++ after) ↔
      isWhole before = true ∧
        (hasCrlf before = true → toCrlf (bodyRegion body) = bodyRegion body) := by
  have htext : before ++ wrap body ++ after = before ++ (beginMarker ++ ['\n']) ++
      bodyRegion body ++ (endMarker ++ ['\n'] ++ after) := by
    rw [wrap_eq]
    simp only [List.append_assoc]
  constructor
  · intro h
    obtain ⟨old, new, hold, hnew, hout⟩ := splice_eq_ok_iff.mp h
    obtain rfl := hnew.unique (cutAt_wrap_of_wellMarked hnew.wellMarked)
    -- the closing line is the one of the body, wherever the opening line is
    have hlines := lines_wrap before body after
    rw [← List.append_assoc] at hlines
    have hafter := hold.after_eq hlines isEnd_closing
    rw [flatten_lines] at hafter
    rw [hafter] at hout
    have hsum : old.before ++ fitted old.before (bodyRegion body) =
        before ++ (beginMarker ++ ['\n']) ++ bodyRegion body :=
      List.append_cancel_right (hout.symm.trans htext)
    have hregion := fitted_eq_of_append hsum
    rw [hregion] at hsum
    have hbefore := List.append_cancel_right hsum
    obtain ⟨m, hall, rfl⟩ := hold
    refine ⟨isWhole_iff.mpr ?_, fun hcrlf => ?_⟩
    · have hbreaks := breaks_of_lines (m.lines_before hall) (by simp)
      rw [flatten_ahead_eq hall hbefore] at hbreaks
      exact hbreaks.ended
    · rwa [fitted, if_pos (by rw [hbefore, hasCrlf_append_opening, hcrlf])] at hregion
  · rintro ⟨hwhole, hcrlf⟩
    rw [splice_around hwhole hmarked, htext, fitted]
    split
    · rename_i h
      rw [hcrlf h]
    · rfl

end Around

end Stencil.Region
