import Stencil.Proofs.Region.Splice

/-!
# Stencil — regions of converted texts

A text without carriage returns can be converted: every line feed becomes a CRLF.
Its lines are the converted lines, and a marker line stays one, since a marker line
does not see how its end is written. So the converted text has its region where the
text had it. The opening line of a region always ends in a line feed, so there is a
CRLF before the region of a converted text, and a new region comes in converted too.

Main results:

* `locate_withCrlf` — a converted text is cut where the text was cut;
* `splice_withCrlf` — splicing into a converted text;
* `splice_again_of_unreturned` — what was spliced in once is there the second time.
-/

namespace Stencil.Region

open Stencil.Text

/-- A text with a carriage return before every line feed. -/
def withCrlf (cs : List Char) : List Char :=
  cs.flatMap fun c => if c = '\n' then ['\r', '\n'] else [c]

/-! ## Converted lines -/

theorem withCrlf_append (a b : List Char) : withCrlf (a ++ b) = withCrlf a ++ withCrlf b :=
  List.flatMap_append

theorem withCrlf_flatten (ls : List (List Char)) :
    withCrlf ls.flatten = (ls.map withCrlf).flatten := by
  induction ls with
  | nil => rfl
  | cons l ls ih => rw [List.flatten_cons, withCrlf_append, ih, List.map_cons, List.flatten_cons]

theorem toCrlf_eq_withCrlf {cs : List Char} (h : '\r' ∉ cs) : toCrlf cs = withCrlf cs := by
  induction cs with
  | nil => rfl
  | cons c rest ih =>
    obtain ⟨hc, hrest⟩ := not_or.mp (mt List.mem_cons.mpr h)
    by_cases hlf : c = '\n'
    · subst hlf
      rw [toCrlf, ih hrest]
      rfl
    · rw [toCrlf_cons hlf fun hglue => hc hglue.1.symm, ih hrest, withCrlf, withCrlf,
        List.flatMap_cons, if_neg hlf]
      rfl

theorem hasCrlf_eq_false {cs : List Char} (h : '\r' ∉ cs) : hasCrlf cs = false := by
  rw [← Bool.not_eq_true, hasCrlf_iff]
  exact fun hcrlf => h (hcrlf.subset (by simp))

theorem hasCrlf_withCrlf {cs : List Char} (h : '\n' ∈ cs) : hasCrlf (withCrlf cs) = true := by
  obtain ⟨front, back, rfl⟩ := List.append_of_mem h
  rw [hasCrlf_iff, withCrlf_append]
  exact ⟨withCrlf front, withCrlf back, by simp [withCrlf]⟩

theorem lines_withCrlf {cs : List Char} (h : '\r' ∉ cs) :
    lines (withCrlf cs) = (lines cs).map withCrlf := by
  rw [← toCrlf_eq_withCrlf h, lines_toCrlf]
  refine List.map_congr_left fun l hl => toCrlf_eq_withCrlf fun hmem => h ?_
  rw [← flatten_lines cs]
  exact List.mem_flatten.mpr ⟨l, hl, hmem⟩

/-- A marker line does not see how its end is written. -/
theorem isMarker_withCrlf {cs : List Char} (h : '\r' ∉ cs) :
    ∀ l ∈ lines cs, isBegin (withCrlf l) = isBegin l ∧ isEnd (withCrlf l) = isEnd l := by
  intro l hl
  have hline : '\r' ∉ l := fun hmem => h (by
    rw [← flatten_lines cs]
    exact List.mem_flatten.mpr ⟨l, hl, hmem⟩)
  rw [isBegin, isBegin, isEnd, isEnd, ← toCrlf_eq_withCrlf hline,
    bareLine_toCrlf (mem_lines_isLine hl)]
  exact ⟨rfl, rfl⟩

/-! ## Cutting a converted text -/

/-- The three parts converted. -/
def Located.withCrlf (l : Located) : Located :=
  ⟨Region.withCrlf l.before, Region.withCrlf l.region, Region.withCrlf l.after⟩

/-- Where a list is cut does not depend on what its members are written as. -/
private theorem cut_map {α : Type} {f : α → α} (p : α → Bool) {xs : List α}
    (h : ∀ x ∈ xs, p (f x) = p x) :
    (xs.map f).takeWhile p = (xs.takeWhile p).map f ∧
      (xs.map f).dropWhile p = (xs.dropWhile p).map f := by
  induction xs with
  | nil => exact ⟨rfl, rfl⟩
  | cons x xs ih =>
    obtain ⟨htake, hdrop⟩ := ih fun y hy => h y (by simp [hy])
    simp only [List.map_cons, List.takeWhile_cons, List.dropWhile_cons, h x (by simp)]
    split <;> simp [htake, hdrop]

private theorem countP_map_of {α : Type} {f : α → α} {p : α → Bool} {xs : List α}
    (h : ∀ x ∈ xs, p (f x) = p x) : (xs.map f).countP p = xs.countP p := by
  rw [List.countP_map]
  exact List.countP_congr fun x hx => by simp [h x hx]

theorem cutLines_withCrlf {ls : List (List Char)}
    (h : ∀ l ∈ ls, isBegin (withCrlf l) = isBegin l ∧ isEnd (withCrlf l) = isEnd l) :
    cutLines (ls.map withCrlf) = (cutLines ls).map Located.withCrlf := by
  obtain ⟨hahead, hopening⟩ := cut_map (!isBegin ·) fun l hl => congrArg not (h l hl).1
  rw [cutLines, cutLines, hahead, hopening]
  cases hrest : ls.dropWhile (!isBegin ·) with
  | nil => rfl
  | cons opening rest =>
    -- the lines behind the opening one are cut at the closing one
    have hsub : (opening :: rest).Sublist ls := hrest ▸ List.dropWhile_sublist _
    have hends : ∀ l ∈ rest, (!isEnd (withCrlf l)) = !isEnd l := fun l hl =>
      congrArg not (h l (hsub.subset (List.mem_cons_of_mem _ hl))).2
    obtain ⟨hinside, hclosing⟩ := cut_map (!isEnd ·) hends
    simp only [List.map_cons, hinside, hclosing]
    cases rest.dropWhile (!isEnd ·) with
    | nil => rfl
    | cons closing tail =>
      simp only [List.map_cons, Except.map, Located.withCrlf, withCrlf_append, withCrlf_flatten]

/-- **A converted text is cut where the text was cut**, or has the same flaw. -/
theorem locate_withCrlf {cs : List Char} (h : '\r' ∉ cs) :
    locate (withCrlf cs) = (locate cs).map Located.withCrlf := by
  have hmarker := isMarker_withCrlf h
  rw [locate, locate, lines_withCrlf h, locateLines, locateLines,
    countP_map_of fun l hl => (hmarker l hl).1, countP_map_of fun l hl => (hmarker l hl).2,
    cutLines_withCrlf hmarker]
  split
  · rfl
  · split
    · rfl
    · rfl

/-! ## Splicing into a converted text -/

theorem CutAt.lineFeed_mem {text : List Char} {l : Located} (h : CutAt text l)
    (hreturn : '\r' ∉ text) : '\n' ∈ l.before := by
  obtain ⟨m, hlines, rfl⟩ := id h
  obtain ⟨ends, c, hopening, hends⟩ := m.exists_opening hlines
  have hmem : c ∈ m.located.before := by
    rw [show m.located.before = m.ahead.flatten ++ m.opening from rfl, hopening]
    simp
  rcases hends c (by simp) with rfl | rfl
  · refine absurd ?_ hreturn
    rw [h.text_eq, Located.text, List.append_assoc]
    exact List.mem_append_left _ hmem
  · exact hmem

theorem CutAt.notMem {text : List Char} {l : Located} (h : CutAt text l) {c : Char}
    (hc : c ∉ text) : c ∉ l.before ∧ c ∉ l.region ∧ c ∉ l.after := by
  rw [h.text_eq, Located.text, List.mem_append, List.mem_append, not_or, not_or] at hc
  exact ⟨hc.1.1, hc.1.2, hc.2⟩

section Splice

variable {e g : List Char}

/-- **Splicing into a converted text** gives the converted result, or the same
error. -/
theorem splice_withCrlf (he : '\r' ∉ e) (hg : '\r' ∉ g) :
    splice (withCrlf e) g = (splice e g).map withCrlf := by
  rw [splice, splice, locate_withCrlf he]
  cases hnew : locate g with
  | error flaw => rfl
  | ok new =>
    cases hold : locate e with
    | error flaw => rfl
    | ok old =>
      have hcut := locate_eq_ok_iff.mp hold
      -- only the converted text has a CRLF before its region
      have hplain : fitted old.before new.region = new.region := by
        rw [fitted, if_neg (by simp [hasCrlf_eq_false (hcut.notMem he).1])]
      have hconverted : fitted (withCrlf old.before) new.region = withCrlf new.region := by
        rw [fitted, if_pos (hasCrlf_withCrlf (hcut.lineFeed_mem he)),
          toCrlf_eq_withCrlf ((locate_eq_ok_iff.mp hnew).notMem hg).2.1]
      simp only [Except.map, Located.withCrlf, hplain, hconverted, withCrlf_append]

/-- A text takes its own region. -/
theorem splice_own (he : '\r' ∉ e) (hmarked : WellMarked e) : splice e e = .ok e := by
  obtain ⟨l, hl⟩ := exists_locate_iff.mpr hmarked
  have hcut := locate_eq_ok_iff.mp hl
  refine splice_eq_ok_iff.mpr ⟨l, l, hcut, hcut, ?_⟩
  rw [fitted, if_neg (by simp [hasCrlf_eq_false (hcut.notMem he).1])]
  exact hcut.text_eq

/-- **What was spliced in once is there the second time.** -/
theorem splice_again_of_unreturned {out : List Char} (he : '\r' ∉ e) (h : splice e g = .ok out) :
    splice out g = .ok out := by
  obtain ⟨old, new, hold, hnew, rfl⟩ := splice_eq_ok_iff.mp h
  have hbefore := (hold.notMem he).1
  -- without carriage returns the region goes in as it stands, and is cut there again
  have hfitted : fitted old.before new.region = new.region := by
    rw [fitted, if_neg (by simp [hasCrlf_eq_false hbefore])]
  rw [hfitted]
  have hcut := hold.replace hnew.isRegion fun hseam =>
    hbefore (List.mem_of_getLast? hseam.1)
  exact splice_eq_ok_iff.mpr ⟨_, new, hcut, hnew, by simp only [hfitted]⟩

theorem notMem_splice {out : List Char} (he : '\r' ∉ e) (hg : '\r' ∉ g)
    (h : splice e g = .ok out) : '\r' ∉ out := by
  obtain ⟨old, new, hold, hnew, rfl⟩ := splice_eq_ok_iff.mp h
  obtain ⟨hbefore, -, hafter⟩ := hold.notMem he
  rw [fitted, if_neg (by simp [hasCrlf_eq_false hbefore])]
  simp [hbefore, (hnew.notMem hg).2.1, hafter]

end Splice

end Stencil.Region
