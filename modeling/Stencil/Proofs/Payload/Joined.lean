import Stencil.Proofs.Payload.Layout
import Stencil.Proofs.Text.Pieces

/-!
# Stencil — the text of an entry

An entry that is written over several lines is read as one line: its lines,
without the blanks around them and without the empty ones, with a space
between. A type on one line without blanks around it is read as it is written.
Taking the entry of a declared field apart gives the field back.

Main results:

* `joined_eq_self` — types on one line;
* `readAs_text` — the entry of a declared field.
-/

namespace Stencil.Payload

open Stencil.Text

/-! ## Texts on one line -/

/-- The lines of a text on one line. -/
def joined (cs : List Char) : List Char :=
  [' '].intercalate (tidyParts (pieces '\n' cs))

/-- What the text of an entry is taken apart as. -/
def readAs (cs : List Char) : Option EntryParts :=
  splitEntry? (joined cs)

/-- Blanks at the end of a text make no difference on one line. -/
theorem joined_concat_blank {text : List Char} {c : Char} (hc : isBlank c = true)
    (hline : c ≠ '\n') : joined (text ++ [c]) = joined text := by
  -- the blank goes to the last line, where it is trimmed
  have hpieces : ∃ ps p, pieces '\n' text = ps ++ [p] := by
    have hne := pieces_ne_nil '\n' text
    exact ⟨_, _, (List.dropLast_append_getLast hne).symm⟩
  obtain ⟨ps, p, hpieces⟩ := hpieces
  have htrim : trim (p ++ [c]) = trim p :=
    trimWhere_append_right (by simpa using hc) p
  rw [joined, joined, pieces_concat hline hpieces, hpieces, tidyParts_concat ps htrim]

/-- Nor at the start. -/
theorem joined_blanks_append {blanks : List Char} (text : List Char)
    (hblanks : ∀ c ∈ blanks, isBlank c = true ∧ c ≠ '\n') :
    joined (blanks ++ text) = joined text := by
  obtain ⟨p, ps, hpieces⟩ := List.exists_cons_of_ne_nil (pieces_ne_nil '\n' text)
  have hline : '\n' ∉ blanks := fun h => (hblanks _ h).2 rfl
  -- the blanks go to the first line, where they are trimmed
  have htrim : trim (blanks ++ p) = trim p :=
    trimWhere_append_left (fun c hc => (hblanks c hc).1) p
  rw [joined, joined, pieces_append hline hpieces, hpieces, tidyParts, List.map_cons, htrim]
  rfl

theorem intercalate_cons_append (a b : List Char) (parts : List (List Char)) :
    [' '].intercalate ((a ++ b) :: parts) = a ++ [' '].intercalate (b :: parts) := by
  cases parts <;> simp [List.intercalate]

/-- Tidy parts with spaces between them have no blanks around them. -/
theorem trim_intercalate {parts : List (List Char)}
    (h : ∀ part ∈ parts, trim part = part ∧ part ≠ []) :
    trim ([' '].intercalate parts) = [' '].intercalate parts := by
  have hhead : ∀ part ∈ parts, ∀ c, part.head? = some c → isBlank c = false := by
    intro part hpart c hc
    rw [← (h part hpart).1] at hc
    exact head?_trimWhere isBlank part hc
  have hlast : ∀ part ∈ parts, ∀ c, part.getLast? = some c → isBlank c = false := by
    intro part hpart c hc
    rw [← (h part hpart).1] at hc
    exact getLast?_trimWhere isBlank part hc
  -- the joined text starts like the first part and ends like the last one
  refine trimWhere_eq_self ?_ ?_
  · intro c hc
    cases parts with
    | nil => simp [List.intercalate] at hc
    | cons part parts =>
      rw [← List.append_nil part, intercalate_cons_append,
        List.head?_append_of_ne_nil _ (h part (by simp)).2] at hc
      exact hhead part (by simp) c hc
  · intro c hc
    induction parts with
    | nil => simp [List.intercalate] at hc
    | cons part parts ih =>
      cases parts with
      | nil => exact hlast part (by simp) c (by simpa [List.intercalate] using hc)
      | cons next parts =>
        have hne : [' '].intercalate (next :: parts) ≠ [] := by
          rw [← List.append_nil next, intercalate_cons_append]
          simp [(h next (by simp)).2]
        rw [List.intercalate_cons_cons, List.getLast?_append_of_ne_nil _ hne] at hc
        exact ih (fun p hp => h p (by simp [hp])) (fun p hp => hhead p (by simp [hp]))
          (fun p hp => hlast p (by simp [hp])) hc

theorem trim_joined (cs : List Char) : trim (joined cs) = joined cs :=
  trim_intercalate fun _ h => mem_tidyParts h

/-- **A text on one line** without blanks around it is as it is. -/
theorem joined_eq_self {cs : List Char} (hline : '\n' ∉ cs) (htrim : trim cs = cs) :
    joined cs = cs := by
  rw [joined, pieces_of_notMem hline, tidyParts, List.map_singleton, htrim]
  by_cases hnil : cs = []
  · rw [hnil]
    rfl
  · simp [hnil, List.intercalate]

/-! ## Types on one line -/

/-- The first line of a type is not blank: a type only runs over the end of a line
after a brace. -/
theorem IsType.open_mem {inGroup : Bool} {text : List Char} (h : IsType inGroup text)
    (hout : inGroup = false) (hline : '\n' ∈ text) :
    ∃ p ps, pieces '\n' text = p :: ps ∧ '\x7b' ∈ p := by
  -- on the shape of the type, up to the brace that opens its first group
  induction h with
  | done => simp at hline
  | @plain inGroup c text hc hne _ _ ih =>
    obtain ⟨p, ps, hpieces, hopen⟩ := ih hout (by simpa [Ne.symm hne] using hline)
    exact ⟨c :: p, ps, pieces_cons hne hpieces, by simp [hopen]⟩
  | @literal inGroup q content text hq hcontent _ ih =>
    have hnotMem : '\n' ∉ q :: (content ++ [q]) := by
      have hqline : '\n' ≠ q := Ne.symm (ne_of_isQuote hq rfl)
      simp only [List.mem_cons, List.mem_append, List.not_mem_nil, or_false, not_or]
      exact ⟨hqline, fun hmem => (hcontent _ hmem).2.2 rfl, hqline⟩
    have hsplit : q :: (content ++ q :: text) = (q :: (content ++ [q])) ++ text := by simp
    rw [hsplit] at hline ⊢
    obtain ⟨p, ps, hpieces, hopen⟩ := ih hout
      ((List.mem_append.mp hline).resolve_left hnotMem)
    exact ⟨_, ps, pieces_append hnotMem hpieces, List.mem_append_right _ hopen⟩
  | @opens text _ _ =>
    obtain ⟨p, ps, hpieces⟩ := List.exists_cons_of_ne_nil (pieces_ne_nil '\n' text)
    exact ⟨'\x7b' :: p, ps, pieces_cons (by decide) hpieces, by simp⟩
  | closes _ _ => simp at hout
  | semicolon _ _ => simp at hout
  | newline _ _ _ => simp at hout

namespace Declared

variable (f : Declared)

/-- The first line of the type, and that it is not blank. -/
theorem exists_firstLine :
    ∃ p ps, pieces '\n' f.typeText = p :: ps ∧ trim p ≠ [] := by
  -- with a second line there is a brace on the first one
  by_cases hline : '\n' ∈ f.typeText
  · obtain ⟨p, ps, hpieces, hopen⟩ := f.isType.open_mem rfl hline
    refine ⟨p, ps, hpieces, fun hnil => ?_⟩
    have hblank := trimWhere_eq_nil_iff.mp hnil _ hopen
    simp [isBlank, isWhiteSpace] at hblank
  · refine ⟨f.typeText, [], pieces_of_notMem hline, fun hnil => ?_⟩
    obtain ⟨c, hc, hne⟩ := f.notBlank
    rw [trimWhere_eq_nil_iff.mp hnil c hc] at hne
    simp at hne

theorem joined_typeText_ne_nil : joined f.typeText ≠ [] := by
  obtain ⟨p, ps, hpieces, hne⟩ := f.exists_firstLine
  rw [joined, hpieces]
  rw [tidyParts_cons hne, ← List.append_nil (trim p), intercalate_cons_append]
  simp [hne]

/-- What a field is read as. -/
def parts : EntryParts :=
  ⟨f.name, f.isOptional, joined f.typeText⟩

/-- What stands before the type of a field. -/
def front (space : List Char) : List Char :=
  f.name ++ ((if f.isOptional then ['?'] else []) ++ (space ++ [':']))

theorem text_eq (space : List Char) : f.text space = f.front space ++ f.typeText := by
  simp [text, front]

/-- It has no blanks around it and no line feed in it. -/
theorem front_spec {space : List Char} (hspace : ∀ c ∈ space, isBlank c = true ∧ c ≠ '\n') :
    (∃ c rest, f.front space = c :: rest ∧ isBlank c = false) ∧ '\n' ∉ f.front space := by
  obtain ⟨c, rest, hname, hstart, -⟩ := f.exists_name
  refine ⟨⟨c, _, by rw [front, hname]; rfl,
    isBlank_of_isIdentifierPart (isIdentifierPart_of_start hstart)⟩, ?_⟩
  intro hmem
  simp only [front, List.mem_append, List.mem_singleton] at hmem
  rcases hmem with hmem | hmem | hmem | hmem
  · exact (plain_of_isIdentifierPart (f.isIdentifierPart_of_mem hmem)).2.1 rfl
  · split at hmem <;> simp at hmem
  · exact (hspace _ hmem).2 rfl
  · simp at hmem

/-- On one line a field is what stands before its type, maybe blanks, and its type
on one line. -/
theorem joined_text {space : List Char} (hspace : ∀ c ∈ space, isBlank c = true ∧ c ≠ '\n') :
    ∃ blanks, (∀ c ∈ blanks, isBlank c = true) ∧
      joined (f.text space) = f.front space ++ (blanks ++ joined f.typeText) := by
  obtain ⟨p, ps, hpieces, hne⟩ := f.exists_firstLine
  obtain ⟨⟨c, rest, hfront, hc⟩, hline⟩ := f.front_spec hspace
  obtain ⟨before, after, hp, hbefore, hafter⟩ := exists_trim p
  -- the first line of the field is trimmed at its end only
  have htrim : trim (f.front space ++ p) = f.front space ++ (before ++ trim p) := by
    conv_lhs => rw [hp]
    rw [← List.append_assoc, ← List.append_assoc, trim, trimWhere_append_right hafter,
      List.append_assoc]
    refine trimWhere_eq_self ?_ ?_
    · intro d hd
      rw [hfront] at hd
      obtain rfl := Option.some.inj hd
      exact hc
    · intro d hd
      rw [← List.append_assoc, List.getLast?_append_of_ne_nil _ hne] at hd
      exact getLast?_trimWhere isBlank p hd
  have hnonempty : trim (f.front space ++ p) ≠ [] := by
    rw [htrim]
    simp [hne]
  refine ⟨before, hbefore, ?_⟩
  rw [f.text_eq, joined, pieces_append hline hpieces, tidyParts_cons hnonempty, htrim, joined,
    hpieces, tidyParts_cons hne, intercalate_cons_append, intercalate_cons_append]

/-- The mark of an optional field is told from the blanks and the colon. -/
theorem dropMark_space {space : List Char} (hspace : ∀ c ∈ space, isBlank c = true ∧ c ≠ '\n')
    (isOptional : Bool) (rest : List Char) :
    dropMark ((if isOptional then ['?'] else []) ++ (space ++ ':' :: rest)) =
      (isOptional, space ++ ':' :: rest) := by
  cases isOptional with
  | true => rfl
  | false =>
    cases space with
    | nil => rfl
    | cons b space =>
      have hne : b ≠ '?' := ne_of_isBlank (hspace b (by simp)).1 rfl
      simp only [Bool.false_eq_true, if_false, List.nil_append, List.cons_append]
      rw [dropMark]
      rintro rest' ⟨⟩
      exact hne rfl

/-- A name ends at the mark, at a blank or at the colon. -/
theorem exists_afterName {space : List Char} (hspace : ∀ c ∈ space, isBlank c = true ∧ c ≠ '\n')
    (isOptional : Bool) (rest : List Char) :
    ∃ c rest', (if isOptional then ['?'] else []) ++ (space ++ ':' :: rest) = c :: rest' ∧
      isIdentifierPart c = false := by
  cases isOptional with
  | true => exact ⟨'?', _, rfl, by decide⟩
  | false =>
    cases space with
    | nil => exact ⟨':', _, rfl, by decide⟩
    | cons b space =>
      refine ⟨b, _, rfl, ?_⟩
      by_contra hpart
      have hblank := isBlank_of_isIdentifierPart (by simpa using hpart)
      rw [(hspace b (by simp)).1] at hblank
      simp at hblank

theorem split_front {space : List Char}
    (hspace : ∀ c ∈ space, isBlank c = true ∧ c ≠ '\n') (rest : List Char) :
    splitEntry? (f.front space ++ rest) = some ⟨f.name, f.isOptional, trim rest⟩ := by
  obtain ⟨c, cs, hname, hstart, hcs⟩ := f.exists_name
  obtain ⟨d, rest', hafter, hd⟩ := exists_afterName hspace f.isOptional rest
  have hfront : f.front space ++ rest =
      c :: (cs ++ ((if f.isOptional then ['?'] else []) ++ (space ++ ':' :: rest))) := by
    simp [front, hname]
  have htake : (cs ++ ((if f.isOptional then ['?'] else []) ++ (space ++ ':' :: rest))).takeWhile
      isIdentifierPart = cs := by
    rw [hafter, List.takeWhile_append_of_pos hcs, List.takeWhile_cons_of_neg (by simp [hd]),
      List.append_nil]
  have hdrop : (cs ++ ((if f.isOptional then ['?'] else []) ++ (space ++ ':' :: rest))).dropWhile
      isIdentifierPart = (if f.isOptional then ['?'] else []) ++ (space ++ ':' :: rest) := by
    rw [List.dropWhile_append_of_pos hcs, hafter, List.dropWhile_cons_of_neg (by simp [hd])]
  have hcolon : (space ++ ':' :: rest).dropWhile isBlank = ':' :: rest := by
    rw [List.dropWhile_append_of_pos fun b hb => (hspace b hb).1,
      List.dropWhile_cons_of_neg (by decide)]
  -- name, mark and colon are read one after the other
  rw [hfront, splitEntry?, if_pos hstart, htake, hdrop, dropMark_space hspace]
  simp only [hcolon, hname]

/-- **The entry of a declared field** is read as the field. -/
theorem readAs_text {space blanks : List Char}
    (hspace : ∀ c ∈ space, isBlank c = true ∧ c ≠ '\n')
    (hblanks : ∀ c ∈ blanks, isBlank c = true ∧ c ≠ '\n') :
    readAs (blanks ++ f.text space) = some f.parts := by
  obtain ⟨gap, hgap, hjoined⟩ := f.joined_text hspace
  rw [readAs, joined_blanks_append _ hblanks, hjoined, f.split_front hspace]
  have htrim : trim (gap ++ joined f.typeText) = joined f.typeText :=
    (trimWhere_append_left hgap _).trans (trim_joined _)
  rw [htrim, parts]

end Declared

end Stencil.Payload
