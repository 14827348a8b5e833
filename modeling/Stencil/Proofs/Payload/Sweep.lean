import Stencil.Proofs.Payload.Comment
import Stencil.Proofs.Text.Pieces

/-!
# Stencil — a body read in one pass

The entries of a body are found in three steps: it is cut into lines, comments
are taken out of each line, and what is left is cut into entries. `sweep` does
all of it in one pass over the characters of the body. It knows for each
character whether it is code, a comment or a literal, and takes it into the
cutting or passes over it. Up to blanks both come to the same entries, and to
the same failures.

Main results:

* `sweep_line` — the pass over one line;
* `foldlM_takeLine` — the pass over all of them;
* `parse_of_declaredBody` — reading a declaration is a pass over its body.
-/

namespace Stencil.Payload

open Stencil.Text Cutting

/-! ## One pass over a body -/

/-- Where a pass stands. -/
structure Stand where
  region : Region
  /-- Whether nothing but blanks has come on this line, and no comment. -/
  isFresh : Bool
  /-- Whether the next character goes with the one before it: the second half of
  a mark, or what a backslash takes with it. -/
  isPaired : Bool

namespace Stand

/-- At the start of a line outside a block comment. -/
def begin : Stand :=
  ⟨.code, true, false⟩

/-- In the middle of a line. -/
def within (region : Region) : Stand :=
  ⟨region, false, false⟩

/-- At the start of the next line. -/
def nextLine (s : Stand) : Stand :=
  if s.region = .blockComment then within .blockComment else begin

/-- Whether the next character, with `rest` after it, is taken in. -/
def takes (s : Stand) (c : Char) (rest : List Char) : Bool :=
  match s.region with
  | .code => !s.isPaired && !opensComment (c :: rest) && !(s.isFresh && c == '*')
  | .literal _ => true
  | .lineComment => false
  | .blockComment => false

/-- After the next character. -/
def after (s : Stand) (c : Char) (rest : List Char) : Stand :=
  match s.region with
  | .code =>
    if s.isPaired then within .code
    else if opensComment (c :: rest) then
      if rest.head? = some '/' then within .lineComment else ⟨.blockComment, false, true⟩
    else if s.isFresh && c == '*' then within .lineComment
    else ⟨if isQuote c then .literal c else .code, s.isFresh && isBlank c, false⟩
  | .literal q =>
    if s.isPaired then within (.literal q)
    else if c = '\\' then ⟨.literal q, false, true⟩
    else within (if c = q then .code else .literal q)
  | .lineComment => within .lineComment
  | .blockComment =>
    if s.isPaired then within .blockComment
    else if closesComment (c :: rest) then ⟨.code, false, true⟩
    else within .blockComment

end Stand

/-- The line of that number that a text starts with, as far as a failure tells
of it. -/
def openingLine (number : Nat) (cs : List Char) : CodeLine :=
  ⟨number, trim (cs.takeWhile (· ≠ '\n')), []⟩

/-- Reads the rest of a body. -/
def sweep (source : String) : Stand → CodeLine → Cutting → List Char → Except ParseError Cutting
  | _, _, k, [] => .ok k.endLine
  | s, l, k, c :: rest =>
    if c = '\n' then sweep source s.nextLine (openingLine (l.number + 1) rest) k.endLine rest
    else if s.takes c rest then
      match k.takeAll source l [c] with
      | .error e => .error e
      | .ok k => sweep source (s.after c rest) l k rest
    else sweep source (s.after c rest) l k rest

section Sweep

variable {source : String} {s : Stand} {l : CodeLine} {k k' : Cutting} {c q : Char}
  {rest tail : List Char}

theorem sweep_newline :
    sweep source s l k ('\n' :: rest) =
      sweep source s.nextLine (openingLine (l.number + 1) rest) k.endLine rest := by
  rw [sweep, if_pos rfl]

theorem sweep_takes (hc : c ≠ '\n') (h : s.takes c rest = true) :
    sweep source s l k (c :: rest) =
      (k.takeAll source l [c]).bind fun k => sweep source (s.after c rest) l k rest := by
  rw [sweep, if_neg hc, if_pos h]
  cases k.takeAll source l [c] <;> rfl

theorem sweep_passes (hc : c ≠ '\n') (h : s.takes c rest = false) :
    sweep source s l k (c :: rest) = sweep source (s.after c rest) l k rest := by
  rw [sweep, if_neg hc, if_neg (by simp [h])]

/-- The end of a line: what has come on it does not matter any more. -/
def AtLineEnd (tail : List Char) : Prop :=
  tail = [] ∨ ∃ rest, tail = '\n' :: rest

theorem sweep_lineEnd (htail : AtLineEnd tail) {region : Region} {isFresh isPaired : Bool} :
    sweep source ⟨region, isFresh, isPaired⟩ l k tail =
      sweep source (.within (if region = .blockComment then .blockComment else .code)) l k
        tail := by
  rcases htail with rfl | ⟨rest, rfl⟩
  · rfl
  · rw [sweep_newline, sweep_newline]
    cases region <;> rfl

/-- The rest of a line is passed over. -/
theorem sweep_lineComment {cs : List Char} (hcs : '\n' ∉ cs) :
    sweep source (.within .lineComment) l k (cs ++ tail) =
      sweep source (.within .lineComment) l k tail := by
  -- nothing on the line is looked at
  induction cs with
  | nil => rfl
  | cons c cs ih =>
    rw [List.mem_cons, not_or] at hcs
    rw [List.cons_append, sweep_passes (Ne.symm hcs.1) rfl]
    exact ih hcs.2

/-- The start of a line comment is not code. -/
theorem sweep_opensLine {cs : List Char} {isFresh : Bool} :
    sweep source ⟨.code, isFresh, false⟩ l k ('/' :: '/' :: cs) =
      sweep source (.within .lineComment) l k cs := by
  rw [sweep_passes (by decide) (by simp [Stand.takes, opensComment])]
  rw [sweep_passes (by decide) (by simp [Stand.takes, Stand.after, Stand.within, opensComment])]
  simp [Stand.after, Stand.within, opensComment]

theorem sweep_opensBlock {cs : List Char} {isFresh : Bool} :
    sweep source ⟨.code, isFresh, false⟩ l k ('/' :: '*' :: cs) =
      sweep source (.within .blockComment) l k cs := by
  rw [sweep_passes (by decide) (by simp [Stand.takes, opensComment])]
  rw [sweep_passes (by decide) (by simp [Stand.takes, Stand.after, opensComment])]
  simp [Stand.after, opensComment]

theorem sweep_closesBlock {cs : List Char} :
    sweep source (.within .blockComment) l k ('*' :: '/' :: cs) =
      sweep source (.within .code) l k cs := by
  rw [sweep_passes (by decide) rfl]
  rw [sweep_passes (by decide) (by simp [Stand.takes, Stand.after, Stand.within, closesComment])]
  simp [Stand.after, Stand.within, closesComment]

theorem sweep_block (hc : c ≠ '\n') (h : closesComment (c :: rest) = false) :
    sweep source (.within .blockComment) l k (c :: rest) =
      sweep source (.within .blockComment) l k rest := by
  rw [sweep_passes hc rfl]
  simp [Stand.after, Stand.within, h]

theorem sweep_code (hc : c ≠ '\n') (h : opensComment (c :: rest) = false) :
    sweep source (.within .code) l k (c :: rest) =
      (k.takeAll source l [c]).bind fun k =>
        sweep source (.within (if isQuote c then .literal c else .code)) l k rest := by
  rw [sweep_takes hc (by simp [Stand.takes, Stand.within, h])]
  simp [Stand.after, Stand.within, h]

theorem sweep_literal (hc : c ≠ '\n') (h : c ≠ '\\') :
    sweep source (.within (.literal q)) l k (c :: rest) =
      (k.takeAll source l [c]).bind fun k =>
        sweep source (.within (if c = q then .code else .literal q)) l k rest := by
  rw [sweep_takes hc rfl]
  simp [Stand.after, Stand.within, h]

/-- What follows one character and then some is what follows them all. -/
private theorem takeAll_bind_cons {β : Type} {c : Char} {code : List Char}
    {f g : Cutting → Except ParseError β}
    (h : ∀ k, f k = (k.takeAll source l code).bind g) :
    (k.takeAll source l [c]).bind f = (k.takeAll source l (c :: code)).bind g := by
  rw [takeAll_cons source l k c code]
  cases k.takeAll source l [c] with
  | error e => rfl
  | ok k₁ => exact h k₁

/-- **The pass over a line** takes in what is left of it without its comments. -/
theorem sweep_within {region : Region} {raw : List Char} (hraw : '\n' ∉ raw)
    (htail : AtLineEnd tail) :
    sweep source (.within region) l k (raw ++ tail) =
      (k.takeAll source l (stripComments region raw).1).bind fun k =>
        sweep source (.within (if (stripComments region raw).2 then .blockComment else .code)) l k
          tail := by
  -- no mark of a comment runs over the end of a line
  have hfree : FreeStart tail := by
    intro c hc
    rcases htail with rfl | ⟨rest, rfl⟩
    · simp at hc
    · obtain rfl := Option.some.inj hc
      decide
  -- one case for each branch of `stripComments`, which is what the pass does too
  fun_induction stripComments region raw generalizing k with
  | case1 => rfl
  | case2 region hregion =>
    show sweep source (.within region) l k tail = sweep source (.within .code) l k tail
    rw [Stand.within, sweep_lineEnd htail, if_neg hregion]
  | case3 cs hcs =>
    rw [sweep_lineComment hraw]
    show sweep source (.within .lineComment) l k tail = sweep source (.within .code) l k tail
    rw [Stand.within, sweep_lineEnd htail, if_neg (by simp)]
  | case4 rest ih =>
    rw [List.cons_append, List.cons_append, sweep_closesBlock]
    exact ih (by simpa using hraw)
  | case5 c rest hclose ih =>
    rw [List.mem_cons, not_or] at hraw
    rw [List.cons_append, sweep_block (Ne.symm hraw.1)
      ((closesComment_append hfree).trans (closesComment_eq_false hclose))]
    exact ih hraw.2
  | case6 q c rest code isOpen hstrip ih =>
    simp only [List.mem_cons, not_or] at hraw
    obtain ⟨hslash, hc, hrest⟩ := hraw
    rw [hstrip] at ih
    rw [List.cons_append, List.cons_append, sweep_takes (by decide) rfl]
    refine takeAll_bind_cons fun k₁ => ?_
    -- the second character is taken in whatever it is
    show sweep source ⟨.literal q, false, true⟩ l k₁ (c :: (rest ++ tail)) = _
    rw [sweep_takes (Ne.symm hc) rfl]
    exact takeAll_bind_cons fun k₂ => ih hrest
  | case7 q c rest hescape code isOpen hstrip ih =>
    rw [List.mem_cons, not_or] at hraw
    rw [hstrip] at ih
    by_cases hc : c = '\\'
    · -- a backslash at the end takes nothing with it
      have hnil : rest = [] := by
        cases rest with
        | nil => rfl
        | cons d rest => exact (hescape d rest hc rfl).elim
      subst hnil hc
      have hself : stripComments (if '\\' = q then .code else .literal q) [] = ([], false) := by
        split <;> rfl
      obtain ⟨rfl, rfl⟩ := Prod.mk.inj (hself.symm.trans hstrip)
      rw [List.singleton_append, sweep_takes (by decide) rfl]
      cases k.takeAll source l ['\\'] with
      | error e => rfl
      | ok k₁ =>
        show sweep source ⟨.literal q, false, true⟩ l k₁ tail =
          sweep source (.within .code) l k₁ tail
        rw [sweep_lineEnd htail, if_neg (by simp)]
    · rw [List.cons_append, sweep_literal (Ne.symm hraw.1) hc]
      exact takeAll_bind_cons fun k₁ => ih hraw.2
  | case8 rest =>
    simp only [List.mem_cons, not_or] at hraw
    rw [List.cons_append, List.cons_append, Stand.within, sweep_opensLine,
      sweep_lineComment hraw.2.2]
    show sweep source (.within .lineComment) l k tail = sweep source (.within .code) l k tail
    rw [Stand.within, sweep_lineEnd htail, if_neg (by simp)]
  | case9 rest ih =>
    rw [List.cons_append, List.cons_append, Stand.within, sweep_opensBlock]
    exact ih (by simpa using hraw)
  | case10 c rest hline hblock code isOpen hstrip ih =>
    rw [List.mem_cons, not_or] at hraw
    rw [hstrip] at ih
    rw [List.cons_append, sweep_code (Ne.symm hraw.1)
      ((opensComment_append hfree).trans (opensComment_eq_false hline hblock))]
    exact takeAll_bind_cons fun k₁ => ih hraw.2

/-! ### The start of a line -/

/-- Blanks are taken in, and the line stays as fresh as it was. -/
theorem sweep_blanks {blanks : List Char} {isFresh : Bool}
    (hblanks : ∀ c ∈ blanks, isBlank c = true) (hline : '\n' ∉ blanks) :
    sweep source ⟨.code, isFresh, false⟩ l k (blanks ++ rest) =
      (k.takeAll source l blanks).bind fun k => sweep source ⟨.code, isFresh, false⟩ l k rest := by
  induction blanks generalizing k with
  | nil => rfl
  | cons c blanks ih =>
    rw [List.mem_cons, not_or] at hline
    have hc : isBlank c = true := hblanks c (by simp)
    -- a blank is neither a mark nor a star
    have hopen : opensComment (c :: (blanks ++ rest)) = false :=
      opensComment_of_ne (ne_of_isBlank hc (by decide))
    have hstar : c ≠ '*' := ne_of_isBlank hc (by decide)
    have hquote := (IsOrdinary.of_isBlank hc).notQuote
    rw [List.cons_append, sweep_takes (Ne.symm hline.1) (by simp [Stand.takes, hopen, hstar]),
      takeAll_cons source l k c blanks]
    cases k.takeAll source l [c] with
    | error e => rfl
    | ok k₁ =>
      have hafter : (⟨.code, isFresh, false⟩ : Stand).after c (blanks ++ rest) =
          ⟨.code, isFresh, false⟩ := by
        simp [Stand.after, hopen, hstar, hquote, hc]
      show sweep source ((⟨.code, isFresh, false⟩ : Stand).after c (blanks ++ rest)) l k₁ _ = _
      rw [hafter]
      exact ih (fun d hd => hblanks d (by simp [hd])) hline.2

/-- A line is not fresh any more after a character that is no blank. -/
theorem sweep_fresh (hstar : c ≠ '*') (hblank : isBlank c = false) (isFresh : Bool) :
    sweep source ⟨.code, isFresh, false⟩ l k (c :: rest) =
      sweep source (.within .code) l k (c :: rest) := by
  have hline : c ≠ '\n' := by
    rintro rfl
    simp [isBlank, isWhiteSpace] at hblank
  -- only a star would be told from what comes within a line
  have htakes : (⟨.code, isFresh, false⟩ : Stand).takes c rest =
      (Stand.within .code).takes c rest := by
    simp [Stand.takes, Stand.within, hstar]
  have hafter : (⟨.code, isFresh, false⟩ : Stand).after c rest =
      (Stand.within .code).after c rest := by
    simp [Stand.after, Stand.within, hstar, hblank]
  rw [sweep, sweep, if_neg hline, if_neg hline, htakes, hafter]

/-- A line that does not start with a star is read like the rest of one. -/
theorem sweep_begin {raw : List Char} (hraw : '\n' ∉ raw) (htail : AtLineEnd tail)
    (hstar : (trim raw).head? ≠ some '*') :
    sweep source .begin l k (raw ++ tail) = sweep source (.within .code) l k (raw ++ tail) := by
  obtain ⟨front, back, hsplit, hfront, hback⟩ := exists_trim raw
  -- a blank line comes to its end as fresh as it began
  cases hcode : trim raw with
  | nil =>
    have hblank : ∀ c ∈ raw, isBlank c = true := trimWhere_eq_nil_iff.mp hcode
    rw [Stand.begin, Stand.within, sweep_blanks hblank hraw, sweep_blanks hblank hraw]
    congr 1
    funext k
    rw [sweep_lineEnd htail, if_neg (by simp)]
    rfl
  | cons c cs =>
    rw [hcode] at hsplit hstar
    have hc : isBlank c = false := head?_trimWhere isBlank raw (by rw [← trim, hcode]; rfl)
    have hline : '\n' ∉ front := fun h => hraw (hsplit ▸ List.mem_append_left _ h)
    rw [hsplit, List.append_assoc, Stand.begin, Stand.within, sweep_blanks hfront hline,
      sweep_blanks hfront hline]
    congr 1
    funext k
    exact sweep_fresh (by simpa using hstar) hc true

/-- One that does is passed over. -/
theorem sweep_star {raw : List Char} (hraw : '\n' ∉ raw) (htail : AtLineEnd tail)
    (hstar : (trim raw).head? = some '*') :
    ∃ blanks, (∀ c ∈ blanks, isBlank c = true) ∧
      sweep source .begin l k (raw ++ tail) =
        (k.takeAll source l blanks).bind fun k => sweep source (.within .code) l k tail := by
  obtain ⟨front, back, hsplit, hfront, -⟩ := exists_trim raw
  obtain ⟨cs, hcode⟩ := List.head?_eq_some_iff.mp hstar
  rw [hcode] at hsplit
  have hline : '\n' ∉ front := fun h => hraw (hsplit ▸ List.mem_append_left _ h)
  have hrest : '\n' ∉ cs ++ back := fun h => hraw (hsplit ▸ by simp [List.mem_append.mp h])
  refine ⟨front, hfront, ?_⟩
  -- the star is passed over, and the rest of the line like a comment
  rw [hsplit, List.append_assoc, Stand.begin, sweep_blanks hfront hline]
  congr 1
  funext k
  have hopen : ∀ ds, opensComment ('*' :: ds) = false := fun _ => opensComment_of_ne (by decide)
  rw [List.cons_append, List.cons_append,
    sweep_passes (by decide) (by simp [Stand.takes])]
  have hafter : ∀ ds, (⟨.code, true, false⟩ : Stand).after '*' ds = .within .lineComment := by
    intro ds
    simp [Stand.after, hopen]
  rw [hafter, sweep_lineComment hrest]
  show sweep source ⟨.lineComment, false, false⟩ l k tail = sweep source (.within .code) l k tail
  rw [sweep_lineEnd htail, if_neg (by simp)]

/-- The code of a line stands between blanks in what is left of the raw line. -/
theorem sweep_stripped {region : Region} (hregion : region = .code ∨ region = .blockComment)
    {raw : List Char} (hraw : '\n' ∉ raw) (htail : AtLineEnd tail) :
    ∃ front back, (∀ c ∈ front, isBlank c = true) ∧ (∀ c ∈ back, isBlank c = true) ∧
      sweep source (.within region) l k (raw ++ tail) =
        (k.takeAll source l
            (front ++ trim (stripComments region (trim raw)).1 ++ back)).bind fun k =>
          sweep source
            (.within (if (stripComments region (trim raw)).2 then .blockComment else .code)) l k
            tail := by
  obtain ⟨front, back, hfront, hback, hstrip⟩ := stripComments_trim hregion raw
  obtain ⟨front', back', hcode, hfront', hback'⟩ :=
    exists_trim (stripComments region (trim raw)).1
  refine ⟨front ++ front', back' ++ back, ?_, ?_, ?_⟩
  · exact fun c hc => (List.mem_append.mp hc).elim (hfront c) (hfront' c)
  · exact fun c hc => (List.mem_append.mp hc).elim (hback' c) (hback c)
  · have hraw' : (stripComments region raw).1 =
        front ++ front' ++ trim (stripComments region (trim raw)).1 ++ (back' ++ back) := by
      rw [hstrip]
      conv_lhs => rw [hcode]
      simp only [List.append_assoc]
    rw [sweep_within hraw htail, hraw', hstrip]

/-- **One line**, as the code of the trimmed line has it. -/
theorem sweep_line (source : String) (l : CodeLine) (k : Cutting) {raw : List Char}
    (inComment : Bool) (hraw : '\n' ∉ raw)
    (htail : AtLineEnd tail) :
    ∃ front back, (∀ c ∈ front, isBlank c = true) ∧ (∀ c ∈ back, isBlank c = true) ∧
      sweep source (if inComment then .within .blockComment else .begin) l k (raw ++ tail) =
        (k.takeAll source l (front ++ trim (codeOf inComment (trim raw)).1 ++ back)).bind fun k =>
          sweep source
            (.within (if (codeOf inComment (trim raw)).2 then .blockComment else .code)) l k
            tail := by
  cases inComment with
  | true => exact sweep_stripped (.inr rfl) hraw htail
  | false =>
    -- such a line has no code at all
    by_cases hstar : (trim raw).head? = some '*'
    · obtain ⟨blanks, hblanks, hsweep⟩ := sweep_star hraw htail hstar
      refine ⟨blanks, [], hblanks, by simp, ?_⟩
      simp only [codeOf, if_pos hstar]
      rw [List.append_nil, trim, trimWhere_eq_nil_iff.mpr (by simp), List.append_nil]
      exact hsweep
    · obtain ⟨front, back, hfront, hback, hsweep⟩ := sweep_stripped (.inl rfl) hraw htail
      refine ⟨front, back, hfront, hback, ?_⟩
      simp only [codeOf, if_neg hstar]
      exact (sweep_begin hraw htail hstar).trans hsweep

end Sweep

/-! ## All lines -/

section Lines

variable {source : String} {k k' : Cutting}

theorem openingLine_append {raw tail : List Char} (number : Nat) (hraw : '\n' ∉ raw)
    (htail : AtLineEnd tail) : openingLine number (raw ++ tail) = ⟨number, trim raw, []⟩ := by
  have hall : ∀ c ∈ raw, decide (c ≠ '\n') = true := by
    rintro c hc
    simp only [ne_eq, decide_eq_true_eq]
    rintro rfl
    exact hraw hc
  rw [openingLine, List.takeWhile_append_of_pos hall]
  rcases htail with rfl | ⟨rest, rfl⟩ <;> simp

/-- A line of which `code` is left, if any. -/
def takeCode (source : String) (number : Nat) (line code : List Char) (k : Cutting) :
    Except ParseError Cutting :=
  if code = [] then .ok k else (k.takeAll source ⟨number, line, []⟩ code).map endLine

theorem codeLinesFrom_cons (number : Nat) (inComment : Bool) (raw : List Char)
    (rest : List (List Char)) :
    (codeLinesFrom number inComment (raw :: rest)).foldlM (takeLine source) k =
      (takeCode source number (trim raw) (trim (codeOf inComment (trim raw)).1) k).bind fun k =>
        (codeLinesFrom (number + 1) (codeOf inComment (trim raw)).2 rest).foldlM (takeLine source)
          k := by
  simp only [codeLinesFrom]
  -- a line without code is left out of the list
  cases trim (codeOf inComment (trim raw)).1 with
  | nil => rfl
  | cons c cs =>
    have hline : k.takeLine source ⟨number, trim raw, c :: cs⟩ =
        takeCode source number (trim raw) (c :: cs) k := by
      rw [takeLine_eq, takeCode, if_neg (by simp)]
      rfl
    rw [List.foldlM_cons, hline]
    rfl

theorem takeCode_padded (source : String) {front back : List Char} (number : Nat)
    (line code : List Char)
    (hk' : k'.BetweenLines) (hsame : k.tidy = k'.tidy)
    (hfront : ∀ c ∈ front, isBlank c = true) (hback : ∀ c ∈ back, isBlank c = true) :
    (takeCode source number line code k).map tidy =
      ((k'.takeAll source ⟨number, line, []⟩ (front ++ code ++ back)).map endLine).map tidy := by
  rw [takeAll_padded hk' hfront hback, takeCode]
  -- blanks alone leave no trace, and code may stand between blanks
  split
  · rename_i hnil
    rw [hnil]
    show Except.ok k.tidy = Except.ok k'.endLine.tidy
    rw [hk'.tidy_endLine, hsame]
  · rcases eq_or_of_map_eq (takeAll_tidy source ⟨number, line, []⟩ code hsame) with
      ⟨e, herror, herror'⟩ | ⟨k₁, k₁', hok, hok', htidy⟩
    · rw [herror, herror']
    · rw [hok, hok']
      show Except.ok k₁.endLine.tidy = Except.ok k₁'.endLine.tidy
      rw [← endLine_tidy, htidy, endLine_tidy]

theorem betweenLines_of_takeCode {number : Nat} {line code : List Char} {k₁ : Cutting}
    (hk : k.BetweenLines) (h : takeCode source number line code k = .ok k₁) : k₁.BetweenLines := by
  rw [takeCode] at h
  split at h
  · rwa [← Except.ok.inj h]
  · cases hall : k.takeAll source ⟨number, line, []⟩ code with
    | error e => simp [hall, Except.map] at h
    | ok k₂ =>
      rw [hall] at h
      obtain rfl := Except.ok.inj h
      exact betweenLines_endLine k₂

/-- The last line of a body. -/
theorem sweep_lastLine (source : String) (l : CodeLine) (k : Cutting) {raw : List Char}
    (inComment : Bool) (hraw : '\n' ∉ raw) :
    ∃ front back, (∀ c ∈ front, isBlank c = true) ∧ (∀ c ∈ back, isBlank c = true) ∧
      sweep source (if inComment then .within .blockComment else .begin) l k raw =
        (k.takeAll source l (front ++ trim (codeOf inComment (trim raw)).1 ++ back)).map
          endLine := by
  obtain ⟨front, back, hfront, hback, hsweep⟩ := sweep_line source l k inComment hraw (.inl rfl)
  refine ⟨front, back, hfront, hback, ?_⟩
  rw [List.append_nil] at hsweep
  rw [hsweep]
  cases k.takeAll source l (front ++ trim (codeOf inComment (trim raw)).1 ++ back) <;> rfl

/-- A line and what comes after it. -/
theorem sweep_firstLine (source : String) (l : CodeLine) (k : Cutting) {raw : List Char}
    (inComment : Bool) (hraw : '\n' ∉ raw) (rest : List Char) :
    ∃ front back, (∀ c ∈ front, isBlank c = true) ∧ (∀ c ∈ back, isBlank c = true) ∧
      sweep source (if inComment then .within .blockComment else .begin) l k (raw ++ '\n' :: rest) =
        ((k.takeAll source l
          (front ++ trim (codeOf inComment (trim raw)).1 ++ back)).map endLine).bind fun k =>
            sweep source
              (if (codeOf inComment (trim raw)).2 then .within .blockComment else .begin)
              (openingLine (l.number + 1) rest) k rest := by
  obtain ⟨front, back, hfront, hback, hsweep⟩ := sweep_line source l k inComment hraw
    (.inr ⟨rest, rfl⟩)
  refine ⟨front, back, hfront, hback, ?_⟩
  rw [hsweep]
  cases k.takeAll source l (front ++ trim (codeOf inComment (trim raw)).1 ++ back) with
  | error e => rfl
  | ok k₁ =>
    show sweep source (.within (if (codeOf inComment (trim raw)).2 then .blockComment else .code)) l
      k₁ ('\n' :: rest) = sweep source _ _ k₁.endLine rest
    rw [sweep_newline]
    cases (codeOf inComment (trim raw)).2 <;> rfl

/-- **A body is cut in one pass** as it is cut line by line. -/
theorem foldlM_takeLine (source : String) (number : Nat) (inComment : Bool) (body : List Char)
    (hk : k.BetweenLines) (hk' : k'.BetweenLines) (hsame : k.tidy = k'.tidy) :
    ((codeLinesFrom number inComment (pieces '\n' body)).foldlM (takeLine source) k).map tidy =
      (sweep source (if inComment then .within .blockComment else .begin) (openingLine number body)
        k' body).map tidy := by
  -- on the length of the body, of which one line is read at a time
  induction hlength : body.length using Nat.strongRecOn generalizing body number inComment k k' with
  | ind n ih =>
    obtain ⟨raw, hraw, hbody⟩ := exists_firstPiece '\n' body
    rcases hbody with rfl | ⟨rest, rfl⟩
    · -- the last line
      have hopening := openingLine_append number hraw (.inl rfl)
      rw [List.append_nil] at hopening
      obtain ⟨front, back, hfront, hback, hsweep⟩ :=
        sweep_lastLine source ⟨number, trim body, []⟩ k' inComment hraw
      rw [pieces_of_notMem hraw, codeLinesFrom_cons, hopening, hsweep,
        ← takeCode_padded source number (trim body) _ hk' hsame hfront hback]
      cases takeCode source number (trim body) (trim (codeOf inComment (trim body)).1) k <;> rfl
    · -- one line, and the others by induction
      obtain ⟨front, back, hfront, hback, hsweep⟩ :=
        sweep_firstLine source ⟨number, trim raw, []⟩ k' inComment hraw rest
      rw [pieces_append_sep hraw, codeLinesFrom_cons,
        openingLine_append number hraw (.inr ⟨rest, rfl⟩), hsweep]
      have hline := takeCode_padded source number (trim raw)
        (trim (codeOf inComment (trim raw)).1) hk' hsame hfront hback
      rcases eq_or_of_map_eq hline with ⟨e, herror, herror'⟩ | ⟨k₁, k₁', hok, hok', htidy⟩
      · rw [herror, herror']
        rfl
      · rw [hok, hok']
        -- the pass is between two lines as well
        have hk₁' : k₁'.BetweenLines := by
          cases hall : k'.takeAll source ⟨number, trim raw, []⟩
              (front ++ trim (codeOf inComment (trim raw)).1 ++ back) with
          | error e =>
            rw [hall] at hok'
            simp [Except.map] at hok'
          | ok k₂ =>
            rw [hall] at hok'
            exact Except.ok.inj hok' ▸ betweenLines_endLine k₂
        exact ih rest.length (by rw [← hlength]; simp; omega) (number + 1) _ rest
          (betweenLines_of_takeCode hk hok) hk₁' htidy rfl

/-! ## Reading a declaration -/

/-- The entries of a body whose lines are cut. -/
def finish (source : String) (k : Cutting) : Except ParseError (List Entry) :=
  match k.current with
  | none => .ok k.entries
  | some e => .error ⟨.openObject, source, some e.number, some (String.ofList e.line)⟩

theorem finish_tidy (source : String) (h : k.tidy = k'.tidy) :
    (finish source k).map (List.map Entry.tidy) =
      (finish source k').map (List.map Entry.tidy) := by
  obtain ⟨hentries, hcurrent⟩ : k.entries.map Entry.tidy = k'.entries.map Entry.tidy ∧
      k.current.map Entry.tidy = k'.current.map Entry.tidy := by
    simp only [tidy, Cutting.mk.injEq] at h
    exact ⟨h.1, h.2.1⟩
  rw [finish, finish]
  cases hk : k.current with
  | none =>
    obtain hk' : k'.current = none := by simpa [hk] using hcurrent.symm
    rw [hk']
    exact congrArg Except.ok hentries
  | some e =>
    cases hk' : k'.current with
    | none => simp [hk, hk'] at hcurrent
    | some e' =>
      have htidy : e.tidy = e'.tidy := by simpa [hk, hk'] using hcurrent
      simp only [Entry.tidy, Entry.mk.injEq] at htidy
      simp [htidy.1, htidy.2.1, Except.map]

/-- The entries that a pass over a body comes to. -/
def sweepBody (source : String) (body : List Char) (firstLine : Nat) :
    Except ParseError (List Entry) :=
  (sweep source .begin (openingLine firstLine body) .start body).bind (finish source)

theorem entries_eq_sweep (source : String) (body : List Char) (firstLine : Nat) :
    (entries source (codeLines body firstLine)).map (List.map Entry.tidy) =
      (sweepBody source body firstLine).map (List.map Entry.tidy) := by
  have hsame := foldlM_takeLine source firstLine false body betweenLines_start betweenLines_start
    rfl
  show (((codeLinesFrom firstLine false (pieces '\n' body)).foldlM (takeLine source) start).bind
      (finish source)).map _ = ((sweep source _ _ start body).bind (finish source)).map _
  rcases eq_or_of_map_eq hsame with ⟨e, herror, herror'⟩ | ⟨k, k', hok, hok', htidy⟩
  · rw [herror]
    exact (congrArg (fun x => (Except.bind x (finish source)).map (List.map Entry.tidy))
      herror').symm
  · rw [hok]
    refine (finish_tidy source htidy).trans ?_
    exact (congrArg (fun x => (Except.bind x (finish source)).map (List.map Entry.tidy))
      hok').symm

theorem parse_eq_bind (text source : String) :
    Payload.parse text source =
      (declaredBody source text.toList).bind fun found =>
        (entries source (codeLines found.1 found.2)).bind fun es =>
          (fieldsOf source [] es).map fun fields => ⟨fields, source⟩ := by
  rw [Payload.parse]
  cases declaredBody source text.toList with
  | error e => rfl
  | ok found =>
    show (entries source _).bind _ = (entries source _).bind _
    cases entries source (codeLines found.1 found.2) with
    | error e => rfl
    | ok es =>
      show (fieldsOf source [] es).bind _ = (fieldsOf source [] es).map _
      cases fieldsOf source [] es <;> rfl

/-- **Reading a declaration** is one pass over its body. -/
theorem parse_of_declaredBody {text source : String} {body : List Char} {firstLine : Nat}
    (h : declaredBody source text.toList = .ok (body, firstLine)) :
    Payload.parse text source =
      (sweepBody source body firstLine).bind fun es =>
        (fieldsOf source [] es).map fun fields => ⟨fields, source⟩ := by
  rw [parse_eq_bind, h]
  show (entries source (codeLines body firstLine)).bind _ = _
  rcases eq_or_of_map_eq (entries_eq_sweep source body firstLine) with
    ⟨e, herror, herror'⟩ | ⟨es, es', hok, hok', htidy⟩
  · rw [herror, herror']
  · rw [hok, hok']
    show (fieldsOf source [] es).map _ = (fieldsOf source [] es').map _
    rw [← fieldsOf_tidy source [] es, htidy, fieldsOf_tidy]

end Lines

end Stencil.Payload
