import Mathlib.Data.List.DropRight
import Stencil.Text.Lines

/-!
# Stencil — the lines of texts put together

Cutting into lines is local: two texts put together have the lines of the one
and then the lines of the other, unless a line runs across the seam. It does
so in two ways only. The first text may not end its last line, or a carriage
return at its end meets a line feed and both become one line end.

Main results:

* `lines_append` — no line runs across a seam that `Breaks`;
* `lines_append_lf` — a line feed after a carriage return joins its line;
* `breaks_of_lines` and `lines_flatten_right` — some of the lines of a text,
  put together, have just these lines;
* `lines_toCrlf` — writing line ends as CRLF keeps the lines apart.
-/

namespace Stencil.Text

/-! ## One character at a time -/

/-- A line end that no line feed joins is a line of its own if it comes
first. -/
theorem lines_cons_end {c : Char} {rest : List Char} (hc : isLineEnd c = true)
    (hglue : ¬ (c = '\r' ∧ rest.head? = some '\n')) :
    lines (c :: rest) = [c] :: lines rest := by
  rw [lines]
  · simp [hc]
  · intro tail hr hrest
    exact hglue ⟨hr, by simp [hrest]⟩

/-- Any other character belongs to the line that follows. -/
theorem lines_cons_other {c : Char} {rest : List Char} (hc : isLineEnd c = false) :
    lines (c :: rest) = (c :: (lines rest).headD []) :: (lines rest).tail := by
  rw [lines]
  · rw [if_neg (by simp [hc])]
    cases lines rest <;> rfl
  · intro tail hr
    subst hr
    simp [isLineEnd] at hc

theorem lines_eq_nil {cs : List Char} : lines cs = [] ↔ cs = [] := by
  constructor
  · intro h
    simpa [h] using (flatten_lines cs).symm
  · rintro rfl
    rfl

/-- The character before a line feed decides whether that ends a line of its
own. -/
private theorem not_crlf_of {c : Char} {rest : List Char}
    (h : ∀ tail, c = '\r' → rest = '\n' :: tail → False) :
    ¬ (c = '\r' ∧ rest.head? = some '\n') := by
  rintro ⟨rfl, hhead⟩
  cases rest with
  | nil => simp at hhead
  | cons d rest => exact h rest rfl (by simpa using hhead)

/-! ## Two texts put together -/

/-- No line runs from the first text into the second: the first is empty or
ends its last line, and the second does not make that line end longer. -/
structure Breaks (a b : List Char) : Prop where
  ended : ∀ c, a.getLast? = some c → isLineEnd c = true
  unjoined : ¬ (a.getLast? = some '\r' ∧ b.head? = some '\n')

theorem Breaks.of_cons {c : Char} {a b : List Char} (h : Breaks (c :: a) b) : Breaks a b := by
  cases a with
  | nil => exact ⟨by simp, by simp⟩
  | cons d a => exact ⟨by simpa using h.ended, by simpa using h.unjoined⟩

theorem Breaks.nil (b : List Char) : Breaks [] b :=
  ⟨by simp, by simp⟩

/-- No line runs across a line feed. -/
theorem Breaks.concat_lf (a b : List Char) : Breaks (a ++ ['\n']) b :=
  ⟨by simp [isLineEnd], by simp⟩

/-- Where the seam breaks is a matter of the two characters at it. -/
theorem Breaks.append_left {a b : List Char} (h : Breaks a b) (pre : List Char)
    (ha : a ≠ []) : Breaks (pre ++ a) b := by
  -- what is put in front is not at the seam
  have hlast : (pre ++ a).getLast? = a.getLast? := by
    rw [List.getLast?_append, List.getLast?_eq_some_getLast ha]
    rfl
  exact ⟨by simpa only [hlast] using h.ended, by simpa only [hlast] using h.unjoined⟩

/-- A text that is not empty hides what follows it from the seam. -/
theorem Breaks.append_right {a b : List Char} (h : Breaks a b) (hb : b ≠ [])
    (post : List Char) : Breaks a (b ++ post) := by
  refine ⟨h.ended, ?_⟩
  cases b with
  | nil => exact absurd rfl hb
  | cons d b => exact h.unjoined

/-- **Cutting into lines is local.** -/
theorem lines_append {a b : List Char} (h : Breaks a b) :
    lines (a ++ b) = lines a ++ lines b := by
  -- on the lines of the first text; the seam is where its last line ends
  fun_induction lines a with
  | case1 => rfl
  | case2 rest ih => simp [lines, ih h.of_cons.of_cons]
  -- a line end: the next character may be the first one of the other text
  | case3 c rest hcrlf hc ih =>
    have hglue : ¬ (c = '\r' ∧ (rest ++ b).head? = some '\n') := by
      cases rest with
      | nil => simpa using h.unjoined
      | cons d rest => simpa using not_crlf_of hcrlf
    rw [List.cons_append, lines_cons_end hc hglue, ih h.of_cons, List.cons_append]
  | case4 c rest hcrlf hc hnil ih =>
    -- a last character that ends no line does not break
    obtain rfl := lines_eq_nil.mp hnil
    exact absurd (h.ended c rfl) hc
  | case5 c rest hcrlf hc l ls hcons ih =>
    rw [List.cons_append, lines_cons_other (by simpa using hc), ih h.of_cons, hcons]
    rfl

/-! ## The first line of a text -/

/-- Characters that end no line, and at most one line end behind them. -/
inductive IsLine : List Char → Prop
  | single (c : Char) : IsLine [c]
  | crlf : IsLine ['\r', '\n']
  | cons {c : Char} {l : List Char} (hc : isLineEnd c = false) (hl : IsLine l) : IsLine (c :: l)

theorem IsLine.ne_nil {l : List Char} (h : IsLine l) : l ≠ [] := by
  cases h <;> simp

theorem lines_of_isLine {l : List Char} (h : IsLine l) : lines l = [l] := by
  induction h with
  | single c =>
    by_cases hc : isLineEnd c = true
    · exact lines_cons_end hc (by simp)
    · rw [lines_cons_other (by simpa using hc)]
      rfl
  | crlf => rfl
  | cons hc _ ih => rw [lines_cons_other hc, ih]; rfl

/-- A text cut behind its first line. -/
structure FirstLine (cs l rest : List Char) : Prop where
  split : cs = l ++ rest
  isLine : IsLine l
  breaks : rest ≠ [] → Breaks l rest

theorem FirstLine.lines_eq {cs l rest : List Char} (h : FirstLine cs l rest) :
    lines cs = l :: lines rest := by
  by_cases hrest : rest = []
  · rw [h.split, hrest, List.append_nil, lines_of_isLine h.isLine]
    rfl
  · rw [h.split, lines_append (h.breaks hrest), lines_of_isLine h.isLine]
    rfl

theorem exists_firstLine {cs : List Char} (h : cs ≠ []) : ∃ l rest, FirstLine cs l rest := by
  fun_induction lines cs with
  | case1 => exact absurd rfl h
  | case2 rest => exact ⟨['\r', '\n'], rest, rfl, .crlf, fun _ => ⟨by simp [isLineEnd], by simp⟩⟩
  | case3 c rest hcrlf hc =>
    exact ⟨[c], rest, rfl, .single c, fun _ => ⟨by simp [hc], by simpa using not_crlf_of hcrlf⟩⟩
  | case4 c rest hcrlf hc hnil =>
    obtain rfl := lines_eq_nil.mp hnil
    exact ⟨[c], [], rfl, .single c, fun h => absurd rfl h⟩
  | case5 c rest hcrlf hc l ls hcons ih =>
    obtain ⟨l, after, hfirst⟩ := ih (by rintro rfl; simp [lines] at hcons)
    exact ⟨c :: l, after, by rw [hfirst.split]; rfl, .cons (by simpa using hc) hfirst.isLine,
      fun hafter => (hfirst.breaks hafter).append_left [c] hfirst.isLine.ne_nil⟩

/-- The first of the lines of a text is cut off, and the others are the lines of
the rest. -/
theorem exists_rest_of_lines {cs l : List Char} {ls : List (List Char)} (h : lines cs = l :: ls) :
    ∃ rest, FirstLine cs l rest ∧ lines rest = ls := by
  have hne : cs ≠ [] := by
    rintro rfl
    simp [lines] at h
  obtain ⟨first, rest, hfirst⟩ := exists_firstLine hne
  -- the first line is the one that is cut off
  obtain ⟨rfl, hrest⟩ := List.cons.inj (hfirst.lines_eq.symm.trans h)
  exact ⟨rest, hfirst, hrest⟩

theorem mem_lines_isLine {cs l : List Char} (h : l ∈ lines cs) : IsLine l := by
  generalize hls : lines cs = ls at h
  -- on the lines, each of which is cut off in turn
  induction ls generalizing cs with
  | nil => simp at h
  | cons x xs ih =>
    obtain ⟨rest, hfirst, hrest⟩ := exists_rest_of_lines hls
    rcases List.mem_cons.mp h with rfl | hmem
    · exact hfirst.isLine
    · exact ih hrest hmem

/-! ## Some of the lines of a text -/

/-- The lines from some line on are the lines of the text from there on. -/
theorem lines_flatten_right {cs : List Char} {xs ys : List (List Char)}
    (h : lines cs = xs ++ ys) : lines ys.flatten = ys := by
  induction xs generalizing cs with
  | nil => rw [List.nil_append] at h; rw [← h, flatten_lines]
  | cons x xs ih =>
    obtain ⟨rest, -, hrest⟩ := exists_rest_of_lines h
    exact ih hrest

/-- The seam between two successive lines breaks. -/
theorem breaks_of_lines {cs : List Char} {xs ys : List (List Char)}
    (h : lines cs = xs ++ ys) (hys : ys ≠ []) : Breaks xs.flatten ys.flatten := by
  induction xs generalizing cs with
  | nil => exact .nil _
  | cons x xs ih =>
    obtain ⟨rest, hfirst, hrest⟩ := exists_rest_of_lines h
    rw [List.flatten_cons]
    -- the seam is that of the last line before it
    by_cases hxs : xs.flatten = []
    · have hflat : ys.flatten = rest := by
        rw [← flatten_lines rest, hrest, List.append_eq, List.flatten_append, hxs, List.nil_append]
      rw [hxs, List.append_nil, hflat]
      refine hfirst.breaks ?_
      rintro rfl
      exact hys (List.append_eq_nil_iff.mp hrest.symm).2
    · exact (ih hrest).append_left x hxs

/-- The lines up to some line are the lines of the text up to there. -/
theorem lines_flatten_left {cs : List Char} {xs ys : List (List Char)}
    (h : lines cs = xs ++ ys) : lines xs.flatten = xs := by
  by_cases hys : ys = []
  · rw [hys, List.append_nil] at h
    rw [← h, flatten_lines]
  · have happ := lines_append (breaks_of_lines h hys)
    rw [← List.flatten_append, ← h, flatten_lines, h, lines_flatten_right h] at happ
    exact (List.append_cancel_right happ).symm

/-- **A line feed after a carriage return** becomes part of the line that the
carriage return ends. -/
theorem lines_append_lf {a l : List Char} {xs : List (List Char)}
    (h : lines a = xs ++ [l]) (hcr : l.getLast? = some '\r') :
    lines (a ++ ['\n']) = xs ++ [l ++ ['\n']] := by
  have hmem : l ∈ lines a := by simp [h]
  have hline : IsLine l := mem_lines_isLine hmem
  have hjoined : lines (l ++ ['\n']) = [l ++ ['\n']] := by
    clear h hmem
    induction hline with
    | single c =>
      obtain rfl : c = '\r' := by simpa using hcr
      rfl
    | crlf => exact absurd hcr (by decide)
    | cons hc hl ih =>
      rw [List.getLast?_cons_of_ne_nil hl.ne_nil] at hcr
      rw [List.cons_append, lines_cons_other hc, ih hcr]
      rfl
  -- the lines before the last one are cut off first
  have hseam : Breaks xs.flatten (l ++ ['\n']) := by
    have := breaks_of_lines h (by simp)
    rw [List.flatten_singleton] at this
    exact this.append_right hline.ne_nil _
  have ha : a = xs.flatten ++ l := by
    rw [← flatten_lines a, h, List.flatten_append, List.flatten_singleton]
  rw [ha, List.append_assoc, lines_append hseam, lines_flatten_left h, hjoined]

/-- A line feed behind a line joins it or is a line of its own. -/
theorem IsLine.lines_concat_lf {l : List Char} (h : IsLine l) :
    lines (l ++ ['\n']) = [l ++ ['\n']] ∨ lines (l ++ ['\n']) = [l, ['\n']] := by
  induction h with
  | single c =>
    by_cases hc : isLineEnd c = true
    · by_cases hcr : c = '\r'
      · subst hcr
        exact .inl rfl
      · rw [List.singleton_append, lines_cons_end hc (by simp [hcr])]
        exact .inr rfl
    · rw [List.singleton_append, lines_cons_other (by simpa using hc)]
      exact .inl rfl
  | crlf => exact .inr rfl
  | cons hc _ ih =>
    rw [List.cons_append, lines_cons_other hc]
    rcases ih with ih | ih
    · rw [ih]
      exact .inl rfl
    · rw [ih]
      exact .inr rfl

/-- With one line feed more, a line is as before, has the line feed at its
end, or is new. -/
theorem mem_lines_append_lf {cs x : List Char} (h : x ∈ lines (cs ++ ['\n'])) :
    x ∈ lines cs ∨ x = ['\n'] ∨ ∃ l ∈ lines cs, x = l ++ ['\n'] := by
  generalize hls : lines cs = ls
  induction ls generalizing cs with
  | nil =>
    obtain rfl := lines_eq_nil.mp hls
    exact .inr (.inl (by simpa [lines, isLineEnd] using h))
  | cons l ls ih =>
    obtain ⟨rest, hfirst, hrest⟩ := exists_rest_of_lines hls
    -- only the last line can change
    by_cases hnil : rest = []
    · subst hnil
      rw [hfirst.split, List.append_nil] at h
      rcases hfirst.isLine.lines_concat_lf with hl | hl <;> rw [hl] at h
      · exact .inr (.inr ⟨l, by simp, by simpa using h⟩)
      · rcases List.mem_cons.mp h with rfl | h
        · exact .inl (by simp)
        · exact .inr (.inl (by simpa using h))
    · rw [hfirst.split, List.append_assoc,
        lines_append ((hfirst.breaks hnil).append_right hnil _),
        lines_of_isLine hfirst.isLine, List.singleton_append] at h
      rcases List.mem_cons.mp h with rfl | h
      · exact .inl (by simp)
      · rcases ih h hrest with h | h | ⟨l, hl, rfl⟩
        · exact .inl (List.mem_cons_of_mem _ h)
        · exact .inr (.inl h)
        · exact .inr (.inr ⟨l, List.mem_cons_of_mem _ hl, rfl⟩)

/-! ## Line ends written as CRLF -/

theorem toCrlf_cons {c : Char} {rest : List Char} (hc : c ≠ '\n')
    (hglue : ¬ (c = '\r' ∧ rest.head? = some '\n')) :
    toCrlf (c :: rest) = c :: toCrlf rest := by
  rw [toCrlf]
  · intro tail hr hrest
    exact hglue ⟨hr, by simp [hrest]⟩
  · exact hc

/-- Nothing starts with a line feed any more. -/
theorem head?_toCrlf (cs : List Char) : (toCrlf cs).head? ≠ some '\n' := by
  fun_cases toCrlf cs <;> simp_all

/-- Nor does a text end otherwise than before. -/
theorem getLast?_toCrlf (cs : List Char) : (toCrlf cs).getLast? = cs.getLast? := by
  fun_induction toCrlf cs with
  | case1 => rfl
  | case2 rest ih => simp [List.getLast?_cons, ih]
  | case3 rest ih => simp [List.getLast?_cons, ih]
  | case4 c rest _ _ ih => simp [List.getLast?_cons, ih]

theorem length_le_toCrlf (cs : List Char) : cs.length ≤ (toCrlf cs).length := by
  fun_induction toCrlf cs with
  | case1 => simp
  | case2 rest ih => simpa using ih
  | case3 rest ih => simp; omega
  | case4 c rest _ _ ih => simpa using ih

/-- Every line feed of a converted text has a carriage return before it. -/
theorem getLast?_of_toCrlf {cs front back : List Char} (h : toCrlf cs = front ++ '\n' :: back) :
    front.getLast? = some '\r' := by
  -- the line feed is that of the first pair, or one behind it
  have hpair : ∀ {rest front : List Char},
      (∀ {front}, rest = front ++ '\n' :: back → front.getLast? = some '\r') →
        '\r' :: '\n' :: rest = front ++ '\n' :: back → front.getLast? = some '\r' := by
    intro rest front hrest h
    match front with
    | [] => simp at h
    | [c] => rw [List.getLast?_singleton, (List.cons.inj h).1]
    | c :: d :: front =>
      simp only [List.cons_append, List.cons.injEq] at h
      rw [List.getLast?_cons_cons, List.getLast?_cons, hrest h.2.2]
      rfl
  fun_induction toCrlf cs generalizing front with
  | case1 => simp at h
  | case2 rest ih => exact hpair ih h
  | case3 rest ih => exact hpair ih h
  | case4 c rest hcrlf hlf ih =>
    match front with
    | [] => exact absurd (List.cons.inj h).1 hlf
    | d :: front =>
      rw [List.getLast?_cons, ih (List.cons.inj h).2]
      rfl

theorem hasCrlf_iff {cs : List Char} : hasCrlf cs = true ↔ ['\r', '\n'] <:+: cs := by
  fun_induction hasCrlf cs with
  | case1 => simp
  | case2 rest => exact ⟨fun _ => ⟨[], rest, rfl⟩, fun _ => rfl⟩
  | case3 c rest hcrlf ih =>
    rw [ih, List.infix_cons_iff]
    refine ⟨.inr, ?_⟩
    -- the pair stands at the front, or in the rest
    rintro (⟨post, hpost⟩ | h)
    · obtain ⟨rfl, rfl⟩ := List.cons.inj hpost
      exact (hcrlf post rfl rfl).elim
    · exact h

/-- A character that ends no line is neither of the two. -/
theorem ne_of_not_isLineEnd {c : Char} (hc : isLineEnd c = false) : c ≠ '\r' ∧ c ≠ '\n' := by
  constructor
  · rintro rfl
    simp [isLineEnd] at hc
  · rintro rfl
    simp [isLineEnd] at hc

theorem lines_toCrlf (cs : List Char) : lines (toCrlf cs) = (lines cs).map toCrlf := by
  -- on the lines; writing a line end differently starts no new line
  fun_induction lines cs with
  | case1 => rfl
  | case2 rest ih => simp [toCrlf, lines, ih]
  | case3 c rest hcrlf hc ih =>
    by_cases hlf : c = '\n'
    · subst hlf
      simp [toCrlf, lines, ih]
    · rw [toCrlf_cons hlf (not_crlf_of hcrlf),
        lines_cons_end hc fun h => head?_toCrlf rest h.2, ih]
      simp [toCrlf_cons hlf, toCrlf]
  | case4 c rest hcrlf hc hnil ih =>
    obtain rfl := lines_eq_nil.mp hnil
    obtain ⟨-, hlf⟩ := ne_of_not_isLineEnd (by simpa using hc)
    rw [toCrlf_cons hlf (by simp), toCrlf, lines_cons_other (by simpa using hc)]
    simp [toCrlf_cons hlf, toCrlf, lines]
  | case5 c rest hcrlf hc l ls hcons ih =>
    obtain ⟨hcr, hlf⟩ := ne_of_not_isLineEnd (by simpa using hc)
    rw [toCrlf_cons hlf (by simp [hcr]), lines_cons_other (by simpa using hc), ih, hcons]
    simp [toCrlf_cons hlf, hcr]

/-- A text that is read has no carriage return. -/
theorem notMem_unifyLineEnds (cs : List Char) : '\r' ∉ unifyLineEnds cs := by
  fun_induction unifyLineEnds cs with
  | case1 => simp
  | case2 rest ih => simpa using ih
  | case3 rest _ ih => simpa using ih
  | case4 c rest _ hc ih =>
    rw [List.mem_cons, not_or]
    exact ⟨fun h => hc h.symm, ih⟩

/-- A text without carriage returns is read as it is, whatever follows it. -/
theorem unifyLineEnds_append {a : List Char} (h : '\r' ∉ a) (b : List Char) :
    unifyLineEnds (a ++ b) = a ++ unifyLineEnds b := by
  induction a with
  | nil => rfl
  | cons c a ih =>
    obtain ⟨hc, ha⟩ := not_or.mp (mt List.mem_cons.mpr h)
    rw [List.cons_append, unifyLineEnds, ih ha]
    · rfl
    · rintro rest rfl
      exact absurd rfl hc
    · rintro rfl
      exact absurd rfl hc

/-! ## Lines without their ends -/

theorem bareLine_prefix (l : List Char) : bareLine l <+: l := by
  have h := List.dropWhile_suffix (l := l.reverse) fun c => c == '\r' || c == '\n'
  rw [← List.reverse_prefix, List.reverse_reverse] at h
  exact h

/-- What is missing at the end of a bare line. -/
theorem exists_bareLine (l : List Char) :
    ∃ ends, l = bareLine l ++ ends ∧ ∀ c ∈ ends, c = '\r' ∨ c = '\n' := by
  refine ⟨(l.reverse.takeWhile fun c => c == '\r' || c == '\n').reverse, ?_, fun c hc => ?_⟩
  · rw [bareLine, dropEndWhile, ← List.reverse_append, List.takeWhile_append_dropWhile,
      List.reverse_reverse]
  · simpa using List.mem_takeWhile_imp (List.mem_reverse.mp hc)

theorem bareLine_concat_lf (l : List Char) : bareLine (l ++ ['\n']) = bareLine l := by
  simp [bareLine, dropEndWhile]

theorem bareLine_cons {c : Char} (hc : isLineEnd c = false) (l : List Char) :
    bareLine (c :: l) = c :: bareLine l := by
  have hkept : (c == '\r' || c == '\n') = false := by
    rw [Bool.or_eq_false_iff, beq_eq_false_iff_ne, beq_eq_false_iff_ne]
    exact ne_of_not_isLineEnd hc
  simp [bareLine, dropEndWhile, List.dropWhile_append, hkept]

/-- What stands before a line end does not see how that is written. -/
theorem bareLine_toCrlf {l : List Char} (h : IsLine l) : bareLine (toCrlf l) = bareLine l := by
  induction h with
  | single c =>
    by_cases hlf : c = '\n'
    · subst hlf
      rfl
    · rw [toCrlf_cons hlf (by simp)]
      rfl
  | crlf => rfl
  | cons hc hl ih =>
    obtain ⟨hcr, hlf⟩ := ne_of_not_isLineEnd hc
    rw [toCrlf_cons hlf (by simp [hcr]), bareLine_cons hc, bareLine_cons hc, ih]

end Stencil.Text
