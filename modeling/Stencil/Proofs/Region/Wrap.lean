import Stencil.Proofs.Region.Splice
import Stencil.Proofs.Text.Blank

/-!
# Stencil — generated texts as existing ones

A wrapped body is a text with one region: the body without the line feeds
around it, and one line feed. A body that is not all line feeds does not start
with one there, so its region leaves every seam alone. Splicing it in
therefore cuts the text at the same places as before, and what an earlier
splice put there makes no difference to a later one.

Main results:

* `cutAt_wrap` — where a wrapped body is cut;
* `splice_wrap` — splicing a wrapped body in keeps the cut of the text;
* `splice_forgets` — a later splice undoes an earlier one.
-/

namespace Stencil.Region

open Stencil.Text

/-- A body to wrap: it has no marker line, and something else than line
feeds. -/
structure IsBody (body : List Char) : Prop where
  plain : ∀ l ∈ lines body, isPlain l = true
  substantial : ∃ c ∈ body, c ≠ '\n'

/-- The region of a wrapped body. -/
def bodyRegion (body : List Char) : List Char :=
  trimWhere (· == '\n') body ++ ['\n']

/-! ## A body without the line feeds around it -/

theorem IsBody.trim_ne_nil {body : List Char} (h : IsBody body) :
    trimWhere (· == '\n') body ≠ [] := by
  intro hnil
  obtain ⟨c, hc, hne⟩ := h.substantial
  obtain ⟨front, back, hsplit, hfront, hback⟩ := exists_trimWhere (· == '\n') body
  -- all of the body would be line feeds
  rw [hsplit, hnil, List.append_nil, List.mem_append] at hc
  rcases hc with hc | hc
  · exact hne (by simpa using hfront c hc)
  · exact hne (by simpa using hback c hc)

/-! ## The lines of a wrapped body -/

theorem isPlain_concat_lf (l : List Char) : isPlain (l ++ ['\n']) = isPlain l := by
  rw [isPlain, isPlain, isBegin, isBegin, isEnd, isEnd, bareLine_concat_lf]

theorem isPlain_lines_append_lf {cs : List Char} (h : ∀ l ∈ lines cs, isPlain l = true) :
    ∀ l ∈ lines (cs ++ ['\n']), isPlain l = true := by
  intro l hl
  rcases mem_lines_append_lf hl with hold | rfl | ⟨line, hold, rfl⟩
  · exact h l hold
  · decide
  · rw [isPlain_concat_lf]
    exact h line hold

/-- Line feeds in front are lines of their own. -/
theorem lines_of_lineFeeds {front : List Char} (hfront : ∀ c ∈ front, c = '\n')
    (cs : List Char) : lines (front ++ cs) = front.map (fun _ => ['\n']) ++ lines cs := by
  induction front with
  | nil => rfl
  | cons c front ih =>
    obtain rfl := hfront c (by simp)
    rw [List.cons_append, lines_cons_end (by decide) (by simp),
      ih fun c hc => hfront c (by simp [hc])]
    rfl

/-- The lines of a body are all there when the line feeds around it are gone. -/
theorem IsBody.bodyRegion_plain {body : List Char} (h : IsBody body) :
    ∀ l ∈ lines (bodyRegion body), isPlain l = true := by
  obtain ⟨front, back, hsplit, hfront, hback⟩ := exists_trimWhere (· == '\n') body
  have hplain : ∀ l ∈ lines (trimWhere (· == '\n') body ++ back), isPlain l = true := by
    intro l hl
    refine h.plain l ?_
    rw [hsplit, List.append_assoc, lines_of_lineFeeds (by simpa using hfront)]
    exact List.mem_append_right _ hl
  -- the line feed at the end is new, or the first of those that were there
  cases back with
  | nil => exact isPlain_lines_append_lf (by simpa using hplain)
  | cons c back =>
    obtain rfl : c = '\n' := by simpa using hback c (by simp)
    intro l hl
    refine hplain l ?_
    have hseam : Breaks (bodyRegion body) back := by
      constructor <;> simp [bodyRegion, isLineEnd]
    have hlines := lines_append hseam
    rw [bodyRegion, List.append_assoc, List.singleton_append] at hlines
    rw [hlines]
    exact List.mem_append_left _ hl

theorem IsBody.isRegion {body : List Char} (h : IsBody body) : IsRegion (bodyRegion body) :=
  ⟨h.bodyRegion_plain, by simp [bodyRegion, isLineEnd]⟩

theorem isBegin_opening : isBegin (beginMarker ++ ['\n']) = true := by decide

theorem isEnd_closing : isEnd (endMarker ++ ['\n']) = true := by decide

theorem wrap_eq (body : List Char) :
    wrap body = (beginMarker ++ ['\n']) ++ (bodyRegion body ++ (endMarker ++ ['\n'])) := by
  simp [wrap, bodyRegion]

/-- A body that has no line feed in front and one at its end. -/
structure IsTidy (body : List Char) : Prop where
  head : body.head? ≠ some '\n'
  last : ∃ front c, body = front ++ [c] ++ ['\n'] ∧ c ≠ '\n'

/-- A tidy body is wrapped as it is. -/
theorem IsTidy.bodyRegion_eq {body : List Char} (h : IsTidy body) : bodyRegion body = body := by
  obtain ⟨front, c, hbody, hc⟩ := h.last
  have htrim : trimWhere (· == '\n') (front ++ [c]) = front ++ [c] := by
    refine trimWhere_eq_self (fun d hd => ?_) fun d hd => ?_
    · have hhead : body.head? = some d := by
        rw [hbody, List.head?_append, hd, Option.some_or]
      simpa using fun heq : d = '\n' => h.head (heq ▸ hhead)
    · rw [List.getLast?_concat] at hd
      simpa using Option.some.inj hd ▸ hc
  rw [hbody, bodyRegion, trimWhere_append_right (by simp), htrim]

/-- Whatever stands around a wrapped body, its own lines end in line feeds. -/
theorem lines_wrap (before body after : List Char) :
    lines (before ++ wrap body ++ after) =
      lines (before ++ (beginMarker ++ ['\n'])) ++
        (lines (bodyRegion body) ++ (endMarker ++ ['\n']) :: lines after) := by
  have hclosing : lines (endMarker ++ ['\n']) = [endMarker ++ ['\n']] := by decide
  have hparts : before ++ wrap body ++ after = (before ++ beginMarker ++ ['\n']) ++
      (bodyRegion body ++ ((endMarker ++ ['\n']) ++ after)) := by
    rw [wrap_eq]
    simp only [List.append_assoc]
  rw [hparts, lines_append (.concat_lf _ _), List.append_assoc before,
    show bodyRegion body = trimWhere (· == '\n') body ++ ['\n'] from rfl,
    lines_append (.concat_lf _ _), lines_append (.concat_lf _ _), hclosing]
  rfl

theorem cutAt_wrap_of_plain {body : List Char}
    (h : ∀ l ∈ lines (bodyRegion body), isPlain l = true) :
    CutAt (wrap body) ⟨beginMarker ++ ['\n'], bodyRegion body, endMarker ++ ['\n']⟩ := by
  let m : MarkedLines :=
    { ahead := []
      opening := beginMarker ++ ['\n']
      inside := lines (bodyRegion body)
      closing := endMarker ++ ['\n']
      behind := []
      isBegin_opening := isBegin_opening
      isEnd_closing := isEnd_closing
      ahead_plain := by simp
      inside_plain := h
      behind_plain := by simp }
  have hopening : lines (beginMarker ++ ['\n']) = [beginMarker ++ ['\n']] := by decide
  refine ⟨m, ?_, ?_⟩
  · have hlines := lines_wrap [] body []
    rwa [List.nil_append, List.nil_append, List.append_nil, hopening] at hlines
  · simp [m, MarkedLines.located, flatten_lines]

/-- **A wrapped body is cut around the body.** -/
theorem cutAt_wrap {body : List Char} (h : IsBody body) :
    CutAt (wrap body) ⟨beginMarker ++ ['\n'], bodyRegion body, endMarker ++ ['\n']⟩ :=
  cutAt_wrap_of_plain h.bodyRegion_plain

/-! ## Splicing a wrapped body in -/

/-- The region of a body does not start with a line feed, however its line
ends are written. -/
theorem IsBody.head?_fitted {body : List Char} (h : IsBody body) (before : List Char) :
    (fitted before (bodyRegion body)).head? ≠ some '\n' := by
  rw [fitted]
  -- a line feed written as CRLF starts with the carriage return
  split
  · exact head?_toCrlf _
  · intro hhead
    obtain ⟨c, rest, hinner⟩ := List.exists_cons_of_ne_nil h.trim_ne_nil
    obtain rfl : c = '\n' := by simpa [bodyRegion, hinner] using hhead
    exact absurd (head?_trimWhere (· == '\n') body (by rw [hinner]; rfl)) (by decide)

/-- **A wrapped body goes into a text between the same two parts**, and the
text is cut there again. -/
theorem splice_wrap {text body : List Char} {l : Located} (h : CutAt text l)
    (hbody : IsBody body) :
    splice text (wrap body) =
        .ok (l.before ++ fitted l.before (bodyRegion body) ++ l.after) ∧
      CutAt (l.before ++ fitted l.before (bodyRegion body) ++ l.after)
        ⟨l.before, fitted l.before (bodyRegion body), l.after⟩ := by
  refine ⟨splice_eq_ok_iff.mpr ⟨l, _, h, cutAt_wrap hbody, rfl⟩, ?_⟩
  exact h.replace (hbody.isRegion.fitted l.before) fun hseam => hbody.head?_fitted _ hseam.2

/-- **A later splice forgets an earlier one.** -/
theorem splice_forgets {text out body body' : List Char} (hbody : IsBody body)
    (hbody' : IsBody body') (h : splice text (wrap body) = .ok out) :
    splice out (wrap body') = splice text (wrap body') := by
  obtain ⟨l, new, hl, -, -⟩ := splice_eq_ok_iff.mp h
  obtain ⟨hout, hcut⟩ := splice_wrap hl hbody
  obtain rfl := Except.ok.inj (h.symm.trans hout)
  -- both splices cut their text between the same two parts
  rw [(splice_wrap hcut hbody').1, (splice_wrap hl hbody').1]

end Stencil.Region
