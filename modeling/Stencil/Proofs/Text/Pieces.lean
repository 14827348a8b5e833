import Stencil.Text.Lines

/-!
# Stencil — texts cut at a character

`pieces` cuts a text at every occurrence of a character. What comes before the
first one is the first piece; a character that is added at the end goes to the
last piece, or opens a new one. `upTo` and `behind` cut at the first occurrence
only.
-/

namespace Stencil.Text

variable {α : Type} [DecidableEq α] {sep c : α} {a b cs p : List α} {ps : List (List α)}

theorem pieces_ne_nil (sep : α) (cs : List α) : pieces sep cs ≠ [] := by
  cases cs with
  | nil => simp [pieces]
  | cons c rest =>
    rw [pieces]
    split
    · simp
    · split <;> simp

theorem pieces_sep_cons (sep : α) (rest : List α) :
    pieces sep (sep :: rest) = [] :: pieces sep rest := by
  rw [pieces, if_pos rfl]

theorem pieces_cons (hc : c ≠ sep) (h : pieces sep cs = p :: ps) :
    pieces sep (c :: cs) = (c :: p) :: ps := by
  rw [pieces, if_neg hc, h]

/-- There is one piece more than there are cuts. -/
theorem length_pieces (sep : α) (cs : List α) : (pieces sep cs).length = cs.count sep + 1 := by
  induction cs with
  | nil => rfl
  | cons c cs ih =>
    by_cases hc : c = sep
    · rw [hc, pieces_sep_cons, List.length_cons, ih, List.count_cons_self]
    · obtain ⟨p, ps, hcs⟩ := List.exists_cons_of_ne_nil (pieces_ne_nil sep cs)
      rw [pieces_cons hc hcs, List.count_cons_of_ne hc, ← ih, hcs, List.length_cons,
        List.length_cons]

/-- What stands before the first occurrence belongs to the first piece. -/
theorem pieces_append (ha : sep ∉ a) (hb : pieces sep b = p :: ps) :
    pieces sep (a ++ b) = (a ++ p) :: ps := by
  induction a with
  | nil => exact hb
  | cons c a ih =>
    rw [List.mem_cons, not_or] at ha
    exact pieces_cons (Ne.symm ha.1) (ih ha.2)

theorem pieces_of_notMem (h : sep ∉ cs) : pieces sep cs = [cs] := by
  have hcut := pieces_append (b := []) h rfl
  rwa [List.append_nil] at hcut

theorem pieces_append_sep (ha : sep ∉ a) (b : List α) :
    pieces sep (a ++ sep :: b) = a :: pieces sep b := by
  rw [pieces_append ha (pieces_sep_cons sep b), List.append_nil]

/-- A separator cuts a text whatever stands before it. -/
theorem pieces_append_sep_append (a b : List α) :
    pieces sep (a ++ sep :: b) = pieces sep a ++ pieces sep b := by
  induction a with
  | nil => exact pieces_sep_cons sep b
  | cons c a ih =>
    by_cases hc : c = sep
    · rw [hc, List.cons_append, pieces_sep_cons, pieces_sep_cons, ih, List.cons_append]
    · obtain ⟨p, ps, ha⟩ := List.exists_cons_of_ne_nil (pieces_ne_nil sep a)
      rw [ha] at ih
      rw [List.cons_append, pieces_cons hc ih, pieces_cons hc ha]
      rfl

/-- A text is one piece, or a piece and what comes after the first occurrence. -/
theorem exists_firstPiece (sep : α) (cs : List α) :
    ∃ p, sep ∉ p ∧ (cs = p ∨ ∃ rest, cs = p ++ sep :: rest) := by
  induction cs with
  | nil => exact ⟨[], by simp, .inl rfl⟩
  | cons c cs ih =>
    -- up to the first occurrence
    by_cases hc : c = sep
    · exact ⟨[], by simp, .inr ⟨cs, by rw [hc, List.nil_append]⟩⟩
    · obtain ⟨p, hp, hcs⟩ := ih
      refine ⟨c :: p, by simp [hp, Ne.symm hc], ?_⟩
      rcases hcs with rfl | ⟨rest, rfl⟩
      · exact .inl rfl
      · exact .inr ⟨rest, rfl⟩

theorem pieces_concat_sep (sep : α) (cs : List α) :
    pieces sep (cs ++ [sep]) = pieces sep cs ++ [[]] := by
  induction cs with
  | nil => rw [List.nil_append, pieces_sep_cons, pieces, List.singleton_append]
  | cons c cs ih =>
    by_cases hc : c = sep
    · rw [hc, List.cons_append, pieces_sep_cons, pieces_sep_cons, ih, List.cons_append]
    · obtain ⟨p, ps, hcs⟩ := List.exists_cons_of_ne_nil (pieces_ne_nil sep cs)
      rw [hcs] at ih
      rw [List.cons_append, pieces_cons hc ih, pieces_cons hc hcs]
      rfl

theorem pieces_concat (hc : c ≠ sep) (h : pieces sep cs = ps ++ [p]) :
    pieces sep (cs ++ [c]) = ps ++ [p ++ [c]] := by
  -- on the text before the new character; the last piece is found behind all cuts
  induction cs generalizing p ps with
  | nil =>
    obtain ⟨rfl, rfl⟩ : ps = [] ∧ p = [] := by
      -- the first piece is the last one only if nothing was cut
      cases ps with
      | nil => simpa [pieces, eq_comm] using h
      | cons q ps => simp [pieces] at h
    exact pieces_cons hc rfl
  | cons d cs ih =>
    obtain ⟨q, qs, hcs⟩ := List.exists_cons_of_ne_nil (pieces_ne_nil sep cs)
    by_cases hd : d = sep
    · rw [hd, pieces_sep_cons] at h
      rw [hd, List.cons_append, pieces_sep_cons]
      cases ps with
      | nil => simp [hcs] at h
      | cons r ps =>
        obtain ⟨rfl, hrest⟩ := List.cons.inj h
        rw [ih hrest, List.cons_append]
    · rw [pieces_cons hd hcs] at h
      cases ps with
      | nil =>
        obtain ⟨rfl, rfl⟩ := List.cons.inj h
        have hcut : pieces sep (cs ++ [c]) = [] ++ [q ++ [c]] := ih hcs
        rw [List.cons_append, pieces_cons hd hcut]
        rfl
      | cons r ps =>
        obtain ⟨rfl, hrest⟩ := List.cons.inj h
        have hcut : pieces sep cs = (q :: ps) ++ [p] := by
          rw [hcs, hrest]
          rfl
        rw [List.cons_append, pieces_cons hd (ih hcut)]
        rfl

/-- Cutting takes apart what was joined. -/
theorem pieces_intercalate {parts : List (List α)} (hne : parts ≠ [])
    (h : ∀ part ∈ parts, sep ∉ part) : pieces sep ([sep].intercalate parts) = parts := by
  induction parts with
  | nil => exact absurd rfl hne
  | cons part parts ih =>
    have hpart := h part (by simp)
    cases parts with
    | nil => simpa [List.intercalate] using pieces_of_notMem hpart
    | cons next parts =>
      rw [List.intercalate_cons_cons, List.append_assoc, List.singleton_append,
        pieces_append_sep hpart, ih (by simp) fun q hq => h q (List.mem_cons_of_mem part hq)]

/-- A piece is made of the other characters. -/
theorem mem_of_mem_pieces (hp : p ∈ pieces sep cs) : ∀ d ∈ p, d ∈ cs ∧ d ≠ sep := by
  induction cs generalizing p with
  | nil =>
    obtain rfl : p = [] := by simpa [pieces] using hp
    simp
  | cons c cs ih =>
    have hcons : ∀ {p' : List α}, p' ∈ pieces sep cs → ∀ d ∈ p', d ∈ c :: cs ∧ d ≠ sep :=
      fun hp' d hd => (ih hp' d hd).imp_left (List.mem_cons_of_mem c)
    by_cases hc : c = sep
    · -- at the separator a new piece begins
      rw [hc, pieces_sep_cons] at hp
      rcases List.mem_cons.mp hp with rfl | hp
      · simp
      · exact hcons hp
    · obtain ⟨q, qs, hq⟩ := List.exists_cons_of_ne_nil (pieces_ne_nil sep cs)
      rw [pieces_cons hc hq] at hp
      rcases List.mem_cons.mp hp with rfl | hp
      · intro d hd
        rcases List.mem_cons.mp hd with rfl | hd
        · exact ⟨by simp, hc⟩
        · exact hcons (by simp [hq]) d hd
      · exact hcons (by simp [hq, hp])

omit [DecidableEq α] in
/-- What stands in joined texts stands in one of them, or separates them. -/
theorem mem_of_mem_intercalate {parts : List (List α)} (h : c ∈ a.intercalate parts) :
    c ∈ a ∨ ∃ part ∈ parts, c ∈ part := by
  induction parts with
  | nil => simp [List.intercalate] at h
  | cons part parts ih =>
    cases parts with
    | nil => exact .inr ⟨part, by simp, by simpa [List.intercalate] using h⟩
    | cons next parts =>
      rw [List.intercalate_cons_cons, List.mem_append, List.mem_append] at h
      rcases h with (h | h) | h
      · exact .inr ⟨part, by simp, h⟩
      · exact .inl h
      · exact (ih h).imp_right fun ⟨part', hpart', hc⟩ => ⟨part', by simp [hpart'], hc⟩

omit [DecidableEq α] in
theorem notMem_intercalate {parts : List (List α)} (ha : c ∉ a) (h : ∀ part ∈ parts, c ∉ part) :
    c ∉ a.intercalate parts := by
  intro hmem
  rcases mem_of_mem_intercalate hmem with hmem | ⟨part, hpart, hmem⟩
  · exact ha hmem
  · exact h part hpart hmem

/-! ## Pieces of a text within a text -/

section Within

variable {i : Nat}

/-- A piece of a text is the end of a piece if more stands before the text, and all
of it but for the first one. -/
theorem getElem?_pieces_append_left (h : (pieces sep cs)[i]? = some p) (front : List α) :
    ∃ q, (pieces sep (front ++ cs))[front.count sep + i]? = some (q ++ p) ∧ (i ≠ 0 → q = []) := by
  induction front with
  | nil => exact ⟨[], by simpa using h, fun _ => rfl⟩
  | cons c front ih =>
    obtain ⟨q, hq, hne⟩ := ih
    by_cases hc : c = sep
    · refine ⟨q, ?_, hne⟩
      rw [hc, List.cons_append, pieces_sep_cons, List.count_cons_self, Nat.add_right_comm]
      exact hq
    · obtain ⟨r, rs, hr⟩ := List.exists_cons_of_ne_nil (pieces_ne_nil sep (front ++ cs))
      rw [List.cons_append, pieces_cons hc hr, List.count_cons_of_ne hc]
      rw [hr] at hq
      -- only the first piece has grown
      cases hindex : front.count sep + i with
      | zero =>
        rw [hindex] at hq
        refine ⟨c :: q, ?_, fun hi => absurd hindex (by omega)⟩
        rw [List.getElem?_cons_zero] at hq ⊢
        rw [Option.some.inj hq, List.cons_append]
      | succ n =>
        rw [hindex] at hq
        exact ⟨q, by rwa [List.getElem?_cons_succ] at hq ⊢, hne⟩

/-- It is the start of a piece if more stands behind the text, and all of it but for
the last one. -/
theorem getElem?_pieces_append_right (h : (pieces sep cs)[i]? = some p) (back : List α) :
    ∃ q, (pieces sep (cs ++ back))[i]? = some (p ++ q) ∧ (i ≠ cs.count sep → q = []) := by
  induction cs generalizing i p with
  | nil =>
    obtain ⟨q, qs, hq⟩ := List.exists_cons_of_ne_nil (pieces_ne_nil sep back)
    cases i with
    | zero =>
      obtain rfl : p = [] := by simpa [pieces, eq_comm] using h
      exact ⟨q, by simp [hq], by simp⟩
    | succ i => simp [pieces] at h
  | cons c cs ih =>
    by_cases hc : c = sep
    · rw [hc, pieces_sep_cons] at h
      rw [hc, List.cons_append, pieces_sep_cons, List.count_cons_self]
      cases i with
      | zero =>
        obtain rfl : p = [] := by simpa [eq_comm] using h
        exact ⟨[], rfl, fun _ => rfl⟩
      | succ i =>
        obtain ⟨q, hq, hne⟩ := ih (by simpa using h)
        exact ⟨q, by simpa using hq, fun hi => hne (by omega)⟩
    · obtain ⟨r, rs, hr⟩ := List.exists_cons_of_ne_nil (pieces_ne_nil sep cs)
      obtain ⟨r', rs', hr'⟩ := List.exists_cons_of_ne_nil (pieces_ne_nil sep (cs ++ back))
      rw [pieces_cons hc hr] at h
      rw [List.cons_append, pieces_cons hc hr', List.count_cons_of_ne hc]
      rw [hr, hr'] at ih
      cases i with
      | zero =>
        obtain rfl : p = c :: r := by simpa [eq_comm] using h
        have hfirst : (r :: rs)[0]? = some r := rfl
        obtain ⟨q, hq, hne⟩ := ih hfirst
        obtain rfl : r' = r ++ q := by simpa using hq
        exact ⟨q, rfl, hne⟩
      | succ i =>
        have hlater : (r :: rs)[i + 1]? = some p := by simpa using h
        obtain ⟨q, hq, hne⟩ := ih hlater
        exact ⟨q, by simpa using hq, hne⟩

end Within

/-! ## The first occurrence -/

/-- The text before the first `sep`, or all of it. -/
def upTo (sep : α) (cs : List α) : List α :=
  cs.takeWhile (· ≠ sep)

/-- The text behind the first `sep`. -/
def behind (sep : α) (cs : List α) : List α :=
  (cs.dropWhile (· ≠ sep)).drop 1

/-- A text without the character lets a `takeWhile` for it through. -/
private theorem forall_ne_of_notMem (ha : sep ∉ a) : ∀ d ∈ a, decide (d ≠ sep) = true := by
  intro d hd
  rw [decide_eq_true_eq]
  exact fun heq => ha (heq ▸ hd)

theorem upTo_append (ha : sep ∉ a) (b : List α) : upTo sep (a ++ sep :: b) = a := by
  rw [upTo, List.takeWhile_append_of_pos (forall_ne_of_notMem ha),
    List.takeWhile_cons_of_neg (by simp), List.append_nil]

theorem behind_append (ha : sep ∉ a) (b : List α) : behind sep (a ++ sep :: b) = b := by
  rw [behind, List.dropWhile_append_of_pos (forall_ne_of_notMem ha),
    List.dropWhile_cons_of_neg (by simp)]
  rfl

end Stencil.Text
