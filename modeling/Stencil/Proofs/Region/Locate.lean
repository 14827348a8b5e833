import Stencil.Region
import Stencil.Proofs.Text.Lines

/-!
# Stencil — where the region of a text is

What it takes for a text to have a region, said of its lines alone: one line
of each marker, the opening one first. `MarkedLines` holds the lines of such a
text around its markers, and `locate` finds exactly that cut, or refuses.

Main results:

* `locate_eq_ok_iff` — `locate` cuts a text at the markers among its lines;
* `exists_locate_iff` — it does so exactly for well-marked texts.
-/

namespace Stencil.Region

open Stencil.Text

/-! ## Well-marked texts -/

/-- One line of each marker, in order. -/
structure WellMarked (text : List Char) : Prop where
  begins : (lines text).countP isBegin = 1
  ends : (lines text).countP isEnd = 1
  ordered : ∃ opening closing, isBegin opening = true ∧ isEnd closing = true ∧
    [opening, closing].Sublist (lines text)

/-- No line of either marker. -/
def isPlain (line : List Char) : Bool :=
  !isBegin line && !isEnd line

/-- The lines of a text around its one pair of marker lines. -/
structure MarkedLines where
  ahead : List (List Char)
  opening : List Char
  inside : List (List Char)
  closing : List Char
  behind : List (List Char)
  isBegin_opening : isBegin opening = true
  isEnd_closing : isEnd closing = true
  ahead_plain : ∀ l ∈ ahead, isPlain l = true
  inside_plain : ∀ l ∈ inside, isPlain l = true
  behind_plain : ∀ l ∈ behind, isPlain l = true

namespace MarkedLines

/-- The lines in order. -/
def all (m : MarkedLines) : List (List Char) :=
  m.ahead ++ m.opening :: (m.inside ++ m.closing :: m.behind)

/-- The text cut behind the opening line and before the closing one. -/
def located (m : MarkedLines) : Located :=
  ⟨m.ahead.flatten ++ m.opening, m.inside.flatten, m.closing ++ m.behind.flatten⟩

end MarkedLines

/-- The text is cut at its region: `l.before` ends with the opening line and
`l.after` starts with the closing one. -/
def CutAt (text : List Char) (l : Located) : Prop :=
  ∃ m : MarkedLines, lines text = m.all ∧ l = m.located

theorem CutAt.text_eq {text : List Char} {l : Located} (h : CutAt text l) : text = l.text := by
  obtain ⟨m, hlines, rfl⟩ := h
  rw [← flatten_lines text, hlines]
  simp [MarkedLines.all, MarkedLines.located, Located.text]

/-! ## Marker lines -/

theorem not_isEnd_of_isBegin {l : List Char} (h : isBegin l = true) : isEnd l = false := by
  -- the bare line is one marker, and the markers differ
  rw [isBegin, beq_iff_eq] at h
  rw [isEnd, h]
  decide

theorem not_isBegin_of_isEnd {l : List Char} (h : isEnd l = true) : isBegin l = false := by
  rw [isEnd, beq_iff_eq] at h
  rw [isBegin, h]
  decide

theorem isPlain_iff {l : List Char} : isPlain l = true ↔ isBegin l = false ∧ isEnd l = false := by
  simp [isPlain]

namespace MarkedLines

/-- Only the marker lines count for what no plain line is. -/
private theorem countP_all (m : MarkedLines) {p : List Char → Bool}
    (hp : ∀ l, isPlain l = true → p l = false) :
    m.all.countP p = [m.opening, m.closing].countP p := by
  have hplain : ∀ ls : List (List Char), (∀ l ∈ ls, isPlain l = true) → ls.countP p = 0 := by
    intro ls hls
    refine List.countP_eq_zero.mpr fun l hl => ?_
    simp [hp l (hls l hl)]
  have h₁ := hplain m.ahead m.ahead_plain
  have h₂ := hplain m.inside m.inside_plain
  have h₃ := hplain m.behind m.behind_plain
  simp [all, List.countP_append, List.countP_cons, h₁, h₂, h₃]

theorem countP_isBegin (m : MarkedLines) : m.all.countP isBegin = 1 := by
  rw [m.countP_all fun l hl => (isPlain_iff.mp hl).1]
  simp [m.isBegin_opening, not_isBegin_of_isEnd m.isEnd_closing]

theorem countP_isEnd (m : MarkedLines) : m.all.countP isEnd = 1 := by
  rw [m.countP_all fun l hl => (isPlain_iff.mp hl).2]
  simp [m.isEnd_closing, not_isEnd_of_isBegin m.isBegin_opening]

/-- The lines have their markers in order. -/
theorem ordered (m : MarkedLines) : [m.opening, m.closing].Sublist m.all := by
  -- what stands ahead and inside is dropped, in this order
  refine .trans ?_ (List.sublist_append_right m.ahead _)
  refine .cons_cons m.opening (.trans ?_ (List.sublist_append_right m.inside _))
  exact .cons_cons m.closing (List.nil_sublist _)

end MarkedLines

/-- A list with one member of a kind, cut at that member. -/
private theorem exists_cut_of_countP {α : Type} {p : α → Bool} {ls : List α}
    (h : ls.countP p = 1) :
    ∃ xs a ys, ls = xs ++ a :: ys ∧ p a = true ∧ (∀ x ∈ xs, p x = false) ∧
      ∀ y ∈ ys, p y = false := by
  -- the first member that is of the kind is the only one
  induction ls with
  | nil => simp at h
  | cons b ls ih =>
    by_cases hb : p b = true
    · rw [List.countP_cons_of_pos hb] at h
      have hzero : ls.countP p = 0 := by omega
      exact ⟨[], b, ls, rfl, hb, by simp, by simpa using hzero⟩
    · rw [List.countP_cons_of_neg hb] at h
      obtain ⟨xs, a, ys, rfl, ha, hxs, hys⟩ := ih h
      refine ⟨b :: xs, a, ys, rfl, ha, ?_, hys⟩
      intro x hx
      rcases List.mem_cons.mp hx with rfl | hx
      · simpa using hb
      · exact hxs x hx

/-- One line of each marker, in order, leaves plain lines around them. -/
theorem exists_markedLines {ls : List (List Char)} (hbegins : ls.countP isBegin = 1)
    (hends : ls.countP isEnd = 1)
    (hordered : ∃ opening closing, isBegin opening = true ∧ isEnd closing = true ∧
      [opening, closing].Sublist ls) :
    ∃ m : MarkedLines, ls = m.all := by
  obtain ⟨ahead, opening, rest, rfl, hopening, hahead, hrest⟩ := exists_cut_of_countP hbegins
  have hopening' := not_isEnd_of_isBegin hopening
  -- a closing line behind the one opening line is the only closing line there is
  have hbehind : ∃ closing ∈ rest, isEnd closing = true := by
    obtain ⟨o, c, ho, hc, hsub⟩ := hordered
    obtain ⟨front, back, hsplit, hfront, hback⟩ := List.sublist_append_iff.mp hsub
    cases front with
    | cons d front =>
      obtain ⟨rfl, -⟩ := List.cons.inj hsplit
      have := hahead o (hfront.subset (by simp))
      simp [this] at ho
    | nil =>
      rw [List.nil_append] at hsplit
      subst hsplit
      cases hback with
      | cons _ hin =>
        have := hrest o (hin.subset (by simp))
        simp [this] at ho
      | cons_cons _ hin => exact ⟨c, hin.subset (by simp), hc⟩
  have hcount : 0 < rest.countP isEnd := List.countP_pos_iff.mpr hbehind
  rw [List.countP_append, List.countP_cons_of_neg (by simp [hopening'])] at hends
  have hnone := List.countP_eq_zero.mp (show ahead.countP isEnd = 0 by omega)
  obtain ⟨inside, closing, behind, rfl, hclosing, hinside, hbehind⟩ :=
    exists_cut_of_countP (show rest.countP isEnd = 1 by omega)
  -- a line is plain if it is neither marker line: each count leaves one
  refine ⟨⟨ahead, opening, inside, closing, behind, hopening, hclosing, ?_, ?_, ?_⟩, rfl⟩
  · exact fun l hl => isPlain_iff.mpr ⟨hahead l hl, by simpa using hnone l hl⟩
  · exact fun l hl => isPlain_iff.mpr ⟨hrest l (by simp [hl]), hinside l hl⟩
  · exact fun l hl => isPlain_iff.mpr ⟨hrest l (by simp [hl]), hbehind l hl⟩

/-- A text is well-marked if its lines stand around one pair of markers. -/
theorem wellMarked_iff {text : List Char} :
    WellMarked text ↔ ∃ m : MarkedLines, lines text = m.all := by
  constructor
  · exact fun h => exists_markedLines h.begins h.ends h.ordered
  · rintro ⟨m, hm⟩
    refine ⟨hm ▸ m.countP_isBegin, hm ▸ m.countP_isEnd, ?_⟩
    exact ⟨m.opening, m.closing, m.isBegin_opening, m.isEnd_closing, hm ▸ m.ordered⟩

/-! ## Cutting -/

/-- Everything up to the first member of a kind, that member, and the rest. -/
private theorem takeWhile_dropWhile_cut {α : Type} {p : α → Bool} {xs : List α} {a : α}
    (ys : List α) (hxs : ∀ x ∈ xs, p x = true) (ha : p a = false) :
    (xs ++ a :: ys).takeWhile p = xs ∧ (xs ++ a :: ys).dropWhile p = a :: ys := by
  induction xs with
  | nil => simp [ha]
  | cons x xs ih =>
    have hx := hxs x (by simp)
    have hrest := ih fun y hy => hxs y (by simp [hy])
    simp [hx, hrest.1, hrest.2]

theorem cutLines_all (m : MarkedLines) : cutLines m.all = .ok m.located := by
  have hplain : ∀ l ∈ m.ahead, (!isBegin l) = true :=
    fun l hl => by simp [(isPlain_iff.mp (m.ahead_plain l hl)).1]
  have hopening : (!isBegin m.opening) = false := by simp [m.isBegin_opening]
  have hahead := takeWhile_dropWhile_cut (m.inside ++ m.closing :: m.behind) hplain hopening
  have hplain' : ∀ l ∈ m.inside, (!isEnd l) = true :=
    fun l hl => by simp [(isPlain_iff.mp (m.inside_plain l hl)).2]
  have hclosing : (!isEnd m.closing) = false := by simp [m.isEnd_closing]
  have hinside := takeWhile_dropWhile_cut m.behind hplain' hclosing
  simp only [cutLines, MarkedLines.all, hahead.1, hahead.2, hinside.1, hinside.2,
    MarkedLines.located]

theorem locateLines_all (m : MarkedLines) : locateLines m.all = .ok m.located := by
  simp [locateLines, m.countP_isBegin, m.countP_isEnd, cutLines_all]

/-- The first member of a kind, and that nothing before it is lost. -/
private theorem dropWhile_eq_cons {α : Type} {p : α → Bool} {ls rest : List α} {a : α}
    (h : ls.dropWhile p = a :: rest) : p a = false ∧ (a :: rest).Sublist ls := by
  have hhead := List.head?_dropWhile_not p ls
  rw [h] at hhead
  exact ⟨hhead, h ▸ List.dropWhile_sublist p⟩

/-- Lines that can be cut have their markers in order. -/
theorem ordered_of_cutLines {ls : List (List Char)} {l : Located} (h : cutLines ls = .ok l) :
    ∃ opening closing, isBegin opening = true ∧ isEnd closing = true ∧
      [opening, closing].Sublist ls := by
  rw [cutLines] at h
  split at h
  · simp at h
  · rename_i opening rest hopening
    obtain ⟨hbegin, hsub⟩ := dropWhile_eq_cons hopening
    split at h
    · simp at h
    · rename_i closing tail hclosing
      obtain ⟨hend, hsub'⟩ := dropWhile_eq_cons hclosing
      refine ⟨opening, closing, by simpa using hbegin, by simpa using hend, ?_⟩
      -- the closing line stands in what comes after the opening one
      have hclosing := ((List.nil_sublist tail).cons_cons closing).trans hsub'
      exact (hclosing.cons_cons opening).trans hsub

theorem wellMarked_of_locate {text : List Char} {l : Located} (h : locate text = .ok l) :
    WellMarked text := by
  simp only [locate, locateLines] at h
  split at h
  · simp at h
  · split at h
    · simp at h
    · rename_i hcount
      -- both counts are neither zero nor more than one
      exact ⟨by omega, by omega, ordered_of_cutLines h⟩

/-- **`locate` cuts a text at its one pair of marker lines.** -/
theorem locate_eq_ok_iff {text : List Char} {l : Located} :
    locate text = .ok l ↔ CutAt text l := by
  constructor
  · intro h
    obtain ⟨m, hm⟩ := wellMarked_iff.mp (wellMarked_of_locate h)
    rw [locate, hm, locateLines_all] at h
    exact ⟨m, hm, (Except.ok.inj h).symm⟩
  · rintro ⟨m, hlines, rfl⟩
    rw [locate, hlines, locateLines_all]

/-- **A text has a region exactly if it is well-marked.** -/
theorem exists_locate_iff {text : List Char} :
    (∃ l, locate text = .ok l) ↔ WellMarked text := by
  constructor
  · rintro ⟨l, hl⟩
    exact wellMarked_of_locate hl
  · intro h
    obtain ⟨m, hm⟩ := wellMarked_iff.mp h
    exact ⟨m.located, locate_eq_ok_iff.mpr ⟨m, hm, rfl⟩⟩

theorem CutAt.wellMarked {text : List Char} {l : Located} (h : CutAt text l) :
    WellMarked text :=
  wellMarked_of_locate (locate_eq_ok_iff.mpr h)

instance (text : List Char) : Decidable (WellMarked text) :=
  match h : locate text with
  | .ok _ => .isTrue (wellMarked_of_locate h)
  | .error _ => .isFalse fun hw => by
    obtain ⟨l, hl⟩ := exists_locate_iff.mpr hw
    simp [h] at hl

end Stencil.Region
