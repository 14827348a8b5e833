import Stencil.Proofs.Identifier
import Stencil.Proofs.Payload.Comment
import Stencil.Payload.Reader

/-!
# Stencil — fields laid out in a body

How a list of fields may be written into the body of a declaration. A type is
made of plain characters, literals, and groups in braces; a group may run over
several lines. Between two fields stands a gap: blanks, semicolons and comments,
with a semicolon or the end of a line among them.

Main results:

* `passesOver_type`, `passesOver_gap` — no brace in them closes the body;
* `body?_layout` — the body ends where it was written to end.
-/

namespace Stencil.Payload

open Stencil.Text Cutting

/-! ## Types and gaps -/

/-- The text of a type, from inside a group or from outside. A semicolon or the
end of a line stands in a group only, and no line after it starts with a
star. -/
inductive IsType : (inGroup : Bool) → List Char → Prop
  | done : IsType false []
  | plain {inGroup : Bool} {c : Char} {rest : List Char} : IsOrdinary c → c ≠ '\n' →
      opensComment (c :: rest) = false → IsType inGroup rest → IsType inGroup (c :: rest)
  | literal {inGroup : Bool} {quote : Char} {content rest : List Char} : isQuote quote = true →
      (∀ c ∈ content, c ≠ quote ∧ c ≠ '\\' ∧ c ≠ '\n') → IsType inGroup rest →
      IsType inGroup (quote :: (content ++ quote :: rest))
  | opens {rest : List Char} : IsType true rest → IsType false ('\x7b' :: rest)
  | closes {rest : List Char} : IsType false rest → IsType true ('\x7d' :: rest)
  | semicolon {rest : List Char} : IsType true rest → IsType true (';' :: rest)
  | newline {rest : List Char} : (rest.dropWhile isBlank).head? ≠ some '*' → IsType true rest →
      IsType true ('\n' :: rest)

/-- What stands around fields. It ends the field before it if there is a
semicolon or a line feed in it; a line feed in a comment is one, a semicolon in
a comment is not. -/
inductive IsGap : (ends : Bool) → List Char → Prop
  | nil : IsGap false []
  | blank {ends : Bool} {c : Char} {rest : List Char} : isBlank c = true → IsGap ends rest →
      IsGap (c == '\n' || ends) (c :: rest)
  | semicolon {ends : Bool} {rest : List Char} : IsGap ends rest → IsGap true (';' :: rest)
  | lineComment {ends : Bool} {text rest : List Char} : '\n' ∉ text → IsGap ends rest →
      IsGap true ('/' :: '/' :: (text ++ '\n' :: rest))
  | blockComment {ends : Bool} {text rest : List Char} : ¬ ['*', '/'] <:+: text →
      IsGap ends rest →
      IsGap (text.contains '\n' || ends) ('/' :: '*' :: (text ++ '*' :: '/' :: rest))

/-! ## Fields -/

/-- A field as it is declared. -/
structure Declared where
  name : List Char
  isOptional : Bool
  typeText : List Char
  isName : isIdentifier name = true
  isType : IsType false typeText
  notBlank : ∃ c ∈ typeText, isBlank c = false

/-- The text of a field, with blanks before the colon. -/
def Declared.text (f : Declared) (space : List Char) : List Char :=
  f.name ++ ((if f.isOptional then ['?'] else []) ++ (space ++ ':' :: f.typeText))

/-- Fields laid out one after the other. If another field stands before them, it
must be ended first. A comment does not come directly after a slash. -/
inductive IsLayout : (separated : Bool) → List Declared → List Char → Prop
  | done {separated ends : Bool} {gap : List Char} : IsGap ends gap → IsLayout separated [] gap
  | field {separated ends : Bool} {gap space rest : List Char} {f : Declared}
      {fields : List Declared} : IsGap ends gap → (separated = true → ends = true) →
      (∀ c ∈ space, isBlank c = true ∧ c ≠ '\n') →
      (f.typeText.getLast? = some '/' → rest.head? ≠ some '/') → IsLayout true fields rest →
      IsLayout separated (f :: fields) (gap ++ (f.text space ++ rest))

/-! ## The brace that closes a body -/

/-- Looking for the brace goes over a text from one region and depth to another. -/
def PassesOver (region : Region) (depth : Nat) (text : List Char) (region' : Region)
    (depth' : Nat) (rest : List Char) : Prop :=
  closeBody? region depth (text ++ rest) = (closeBody? region' depth' rest).map (text ++ ·)

section Closing

variable {region region' region'' : Region} {depth depth' depth'' : Nat} {a b rest : List Char}
  {c q : Char}

theorem passesOver_nil (region : Region) (depth : Nat) (rest : List Char) :
    PassesOver region depth [] region depth rest := by
  show closeBody? region depth rest = (closeBody? region depth rest).map fun cs => cs
  rw [Option.map_id']

theorem PassesOver.append (h : PassesOver region depth a region' depth' (b ++ rest))
    (h' : PassesOver region' depth' b region'' depth'' rest) :
    PassesOver region depth (a ++ b) region'' depth'' rest := by
  rw [PassesOver] at h h' ⊢
  rw [List.append_assoc, h, h', Option.map_map]
  congr 1
  funext cs
  simp

theorem PassesOver.cons (h : PassesOver region depth [c] region' depth' (b ++ rest))
    (h' : PassesOver region' depth' b region'' depth'' rest) :
    PassesOver region depth (c :: b) region'' depth'' rest :=
  h.append h'

theorem passesOver_code (hopen : c ≠ '\x7b') (hclose : c ≠ '\x7d')
    (h : opensComment (c :: rest) = false) :
    PassesOver .code depth [c] (if isQuote c then .literal c else .code) depth rest := by
  have hline : ∀ rest', c = '/' → rest = '/' :: rest' → False := by
    rintro rest' rfl rfl
    simp [opensComment] at h
  have hblock : ∀ rest', c = '/' → rest = '*' :: rest' → False := by
    rintro rest' rfl rfl
    simp [opensComment] at h
  rw [PassesOver, List.singleton_append]
  -- the depth is only looked at where a brace closes
  cases depth with
  | zero =>
    rw [closeBody?, if_neg hopen, if_neg hclose]
    · rfl
    · exact hline
    · exact hblock
  | succ depth =>
    rw [closeBody?, if_neg hopen, if_neg hclose]
    · rfl
    · exact hline
    · exact hblock

theorem passesOver_plain (hc : IsOrdinary c) (h : opensComment (c :: rest) = false) :
    PassesOver .code depth [c] .code depth rest := by
  have hcode : PassesOver .code depth [c] (if isQuote c then .literal c else .code) depth rest :=
    passesOver_code hc.notOpen hc.notClose h
  rwa [hc.notQuote] at hcode

theorem passesOver_open : PassesOver .code depth ['\x7b'] .code (depth + 1) rest := by
  rw [PassesOver, List.singleton_append]
  cases depth <;> rfl

theorem passesOver_close : PassesOver .code (depth + 1) ['\x7d'] .code depth rest :=
  rfl

theorem passesOver_semicolon : PassesOver .code depth [';'] .code depth rest :=
  passesOver_code (by decide) (by decide) (opensComment_of_ne (by decide))

theorem ne_of_isQuote {d : Char} (hq : isQuote q = true) (hd : isQuote d = false) : q ≠ d := by
  rintro rfl
  rw [hq] at hd
  simp at hd

theorem passesOver_literal {content : List Char} (hq : isQuote q = true)
    (hcontent : ∀ c ∈ content, c ≠ q ∧ c ≠ '\\' ∧ c ≠ '\n') :
    PassesOver .code depth (q :: (content ++ [q])) .code depth rest := by
  have hstart : PassesOver .code depth [q] (.literal q) depth (content ++ [q] ++ rest) := by
    have hcode : PassesOver .code depth [q] (if isQuote q then .literal q else .code) depth
        (content ++ [q] ++ rest) :=
      passesOver_code (ne_of_isQuote hq (by decide)) (ne_of_isQuote hq (by decide))
        (opensComment_of_ne (ne_of_isQuote hq (by decide)))
    rwa [if_pos hq] at hcode
  -- one character of the content, or the quote at its end
  have hchar : ∀ c rest', c ≠ '\\' →
      PassesOver (.literal q) depth [c] (if c = q then .code else .literal q) depth rest' := by
    intro c rest' hc
    rw [PassesOver, List.singleton_append, closeBody?]
    · rfl
    · rintro rfl rfl
      simp at hc
    · rintro d rest'' rfl rfl
      simp at hc
  refine hstart.cons ?_
  clear hstart
  induction content with
  | nil =>
    have hend := hchar q rest (ne_of_isQuote hq (by decide))
    rwa [if_pos rfl] at hend
  | cons c content ih =>
    obtain ⟨hne, hescape, -⟩ := hcontent c (by simp)
    have hone := hchar c (content ++ [q] ++ rest) hescape
    rw [if_neg hne] at hone
    exact hone.cons (ih fun d hd => hcontent d (by simp [hd]))

theorem passesOver_lineComment {text : List Char} (htext : '\n' ∉ text) :
    PassesOver .lineComment depth (text ++ ['\n']) .code depth rest := by
  -- on the text of the comment, up to the end of its line
  induction text with
  | nil => rfl
  | cons c text ih =>
    rw [List.mem_cons, not_or] at htext
    have hone : PassesOver .lineComment depth [c] .lineComment depth (text ++ ['\n'] ++ rest) := by
      rw [PassesOver, List.singleton_append, closeBody?, if_neg (Ne.symm htext.1)]
      rfl
    exact hone.cons (ih htext.2)

/-- Inside a block comment nothing closes it before its end. -/
theorem closesComment_inside {text : List Char} (htext : ¬ ['*', '/'] <:+: c :: text) :
    closesComment (c :: (text ++ '*' :: '/' :: rest)) = false := by
  cases text with
  | nil => simp [closesComment]
  | cons d text =>
    -- the mark would stand in the text itself
    by_contra hcloses
    obtain ⟨rfl, rfl⟩ : c = '*' ∧ d = '/' := by simpa [closesComment] using hcloses
    exact htext (List.prefix_append ['*', '/'] text).isInfix

theorem passesOver_blockComment {text : List Char} (htext : ¬ ['*', '/'] <:+: text) :
    PassesOver .blockComment depth (text ++ ['*', '/']) .code depth rest := by
  -- on the text of the comment, in which no mark closes it
  induction text with
  | nil => rfl
  | cons c text ih =>
    have hcloses : closesComment (c :: (text ++ '*' :: '/' :: rest)) = false :=
      closesComment_inside htext
    have hone : PassesOver .blockComment depth [c] .blockComment depth
        (text ++ ['*', '/'] ++ rest) := by
      rw [PassesOver, List.singleton_append, List.append_assoc, closeBody?]
      · rfl
      · rintro rest' rfl hrest
        rw [List.cons_append, List.cons_append, List.nil_append] at hrest
        simp [closesComment, hrest] at hcloses
    exact hone.cons (ih fun h => htext (h.trans (List.suffix_cons c text).isInfix))

/-- A text whose comments are told apart from what comes after it. -/
def Apart (text rest : List Char) : Prop :=
  text.getLast? = some '/' → FreeStart rest

theorem Apart.of_append (h : Apart (a ++ b) rest) : Apart b rest := by
  intro hlast
  refine h ?_
  rw [List.getLast?_append, hlast]
  rfl

theorem Apart.opensComment {text : List Char} (h : Apart (c :: text) rest)
    (hopen : opensComment (c :: text) = false) : opensComment (c :: (text ++ rest)) = false := by
  cases text with
  | nil =>
    -- the last character of a type, before what comes after it
    by_cases hc : c = '/'
    · have hfree : FreeStart rest := h (by rw [hc]; rfl)
      exact (opensComment_append hfree).trans hopen
    · exact opensComment_of_ne hc
  | cons d text => exact hopen

theorem passesOver_type {inGroup : Bool} {text : List Char} (h : IsType inGroup text)
    (hapart : Apart text rest) :
    PassesOver .code (depth + inGroup.toNat) text .code depth rest := by
  -- a group is entered one brace deeper and left at the depth it was entered from
  induction h with
  | done => exact passesOver_nil _ _ _
  | plain hc _ hopen _ ih =>
    exact (passesOver_plain hc (hapart.opensComment hopen)).cons (ih (.of_append (a := [_]) hapart))
  | @literal inGroup quote content text hq hcontent _ ih =>
    have hsplit : quote :: (content ++ quote :: text) =
        (quote :: (content ++ [quote])) ++ text := by simp
    -- a literal is one part, whatever stands in it
    rw [hsplit] at hapart ⊢
    exact (passesOver_literal hq hcontent).append (ih hapart.of_append)
  | opens _ ih => exact passesOver_open.cons (ih (.of_append (a := ['\x7b']) hapart))
  | closes _ ih => exact passesOver_close.cons (ih (.of_append (a := ['\x7d']) hapart))
  | semicolon _ ih =>
    exact passesOver_semicolon.cons (ih (.of_append (a := [';']) hapart))
  | newline _ _ ih =>
    exact (passesOver_plain (.of_isBlank rfl) (opensComment_of_ne (by decide))).cons
      (ih (.of_append (a := ['\n']) hapart))

theorem passesOver_gap {ends : Bool} {gap : List Char} (h : IsGap ends gap) :
    PassesOver .code depth gap .code depth rest := by
  -- what stands in a comment closes nothing
  induction h with
  | nil => exact passesOver_nil _ _ _
  | blank hc _ ih =>
    exact (passesOver_plain (.of_isBlank hc) (opensComment_of_ne (ne_of_isBlank hc rfl))).cons ih
  | semicolon _ ih => exact passesOver_semicolon.cons ih
  | @lineComment _ text gap htext _ ih =>
    have hmark : PassesOver .code depth ['/', '/'] .lineComment depth
        (text ++ '\n' :: gap ++ rest) := by
      rw [PassesOver]
      cases depth <;> rfl
    refine hmark.append ?_
    rw [List.append_cons]
    exact (passesOver_lineComment htext).append ih
  | @blockComment _ text gap htext _ ih =>
    have hmark : PassesOver .code depth ['/', '*'] .blockComment depth
        (text ++ '*' :: '/' :: gap ++ rest) := by
      rw [PassesOver]
      cases depth <;> rfl
    refine hmark.append ?_
    have hsplit : text ++ '*' :: '/' :: gap = (text ++ ['*', '/']) ++ gap := by simp
    rw [hsplit]
    exact (passesOver_blockComment htext).append ih

end Closing

/-! ## The body of a layout -/

/-- A character of a name stands for itself. -/
theorem plain_of_isIdentifierPart {c : Char} (hc : isIdentifierPart c = true) :
    IsOrdinary c ∧ c ≠ '\n' ∧ c ≠ '/' := by
  have hne : ∀ d, isIdentifierPart d = false → c ≠ d := by
    rintro d hd rfl
    rw [hc] at hd
    simp at hd
  refine ⟨⟨?_, hne _ (by decide), hne _ (by decide), hne _ (by decide)⟩, hne _ (by decide),
    hne _ (by decide)⟩
  simp only [isQuote, Bool.or_eq_false_iff, beq_eq_false_iff_ne]
  exact ⟨⟨hne _ (by decide), hne _ (by decide)⟩, hne _ (by decide)⟩

/-- Characters that stand for themselves and open no comment may come before a
type. -/
theorem IsType.append_plain {inGroup : Bool} {front text : List Char}
    (hfront : ∀ c ∈ front, IsOrdinary c ∧ c ≠ '\n' ∧ c ≠ '/') (h : IsType inGroup text) :
    IsType inGroup (front ++ text) := by
  induction front with
  | nil => exact h
  | cons c front ih =>
    obtain ⟨hordinary, hline, hslash⟩ := hfront c (by simp)
    exact .plain hordinary hline (opensComment_of_ne hslash)
      (ih fun d hd => hfront d (by simp [hd]))

namespace Declared

variable {f : Declared} {space : List Char}

theorem exists_name (f : Declared) :
    ∃ c rest, f.name = c :: rest ∧ isIdentifierStart c = true ∧
      ∀ d ∈ rest, isIdentifierPart d = true := by
  have hname := f.isName
  -- an identifier has a first character
  cases h : f.name with
  | nil => simp [h, isIdentifier] at hname
  | cons c rest =>
    rw [h, isIdentifier, Bool.and_eq_true, List.all_eq_true] at hname
    exact ⟨c, rest, rfl, hname⟩

theorem isIdentifierPart_of_mem (f : Declared) {c : Char} (hc : c ∈ f.name) :
    isIdentifierPart c = true :=
  Stencil.isIdentifierPart_of_mem f.isName c hc

/-- A field begins like an identifier. -/
theorem exists_text (f : Declared) (space : List Char) :
    ∃ c rest, f.text space = c :: rest ∧ isIdentifierStart c = true := by
  obtain ⟨c, rest, hname, hstart, -⟩ := f.exists_name
  exact ⟨c, _, by rw [text, hname]; rfl, hstart⟩

/-- The text of a field has the shape of a type. -/
theorem isType_text (hspace : ∀ c ∈ space, isBlank c = true ∧ c ≠ '\n') :
    IsType false (f.text space) := by
  have hname : ∀ c ∈ f.name, IsOrdinary c ∧ c ≠ '\n' ∧ c ≠ '/' :=
    fun c hc => plain_of_isIdentifierPart (f.isIdentifierPart_of_mem hc)
  have hmark : ∀ c ∈ (if f.isOptional then ['?'] else []), IsOrdinary c ∧ c ≠ '\n' ∧ c ≠ '/' := by
    intro c hc
    split at hc
    · obtain rfl := List.mem_singleton.mp hc
      exact ⟨⟨rfl, by decide, by decide, by decide⟩, by decide, by decide⟩
    · simp at hc
  have hblank : ∀ c ∈ space, IsOrdinary c ∧ c ≠ '\n' ∧ c ≠ '/' := fun c hc =>
    ⟨.of_isBlank (hspace c hc).1, (hspace c hc).2, ne_of_isBlank (hspace c hc).1 rfl⟩
  -- the name, the mark, the blanks and the colon all stand for themselves
  refine .append_plain hname (.append_plain hmark (.append_plain hblank ?_))
  exact .plain ⟨rfl, by decide, by decide, by decide⟩ (by decide) (opensComment_of_ne (by decide))
    f.isType

theorem getLast?_text (f : Declared) (space : List Char) :
    (f.text space).getLast? = f.typeText.getLast? := by
  obtain ⟨c, hc, -⟩ := f.notBlank
  have hlast := List.getLast?_eq_some_getLast (List.ne_nil_of_mem hc)
  simp [text, List.getLast?_append, List.getLast?_cons, hlast]

end Declared

theorem IsGap.head?_ne {ends : Bool} {gap : List Char} (h : IsGap ends gap) :
    gap.head? ≠ some '*' := by
  cases h with
  | nil => simp
  | blank hc _ => simpa using ne_of_isBlank hc rfl
  | semicolon _ => simp
  | lineComment _ _ => simp
  | blockComment _ _ => simp

theorem IsLayout.head?_ne {separated : Bool} {fields : List Declared} {body : List Char}
    (h : IsLayout separated fields body) : body.head? ≠ some '*' := by
  cases h with
  | done hgap => exact hgap.head?_ne
  | @field _ _ gap space rest f _ hgap _ _ _ _ =>
    rw [List.head?_append]
    cases hhead : gap.head? with
    | some c =>
      have hne := hgap.head?_ne
      rwa [hhead] at hne
    | none =>
      obtain ⟨c, text, htext, hc⟩ := f.exists_text space
      rw [htext]
      rintro ⟨⟩
      simp [isIdentifierStart] at hc

/-- What comes after a field in its layout is apart from it. -/
theorem IsLayout.apart {separated : Bool} {fields : List Declared} {f : Declared}
    {space body tail : List Char} (h : IsLayout separated fields body)
    (hslash : f.typeText.getLast? = some '/' → body.head? ≠ some '/') (htail : FreeStart tail) :
    Apart (f.text space) (body ++ tail) := by
  intro hlast c hc
  rw [f.getLast?_text] at hlast
  -- what comes next is the start of the layout, or of what follows if that is empty
  cases hhead : body.head? with
  | some d =>
    rw [List.head?_append, hhead] at hc
    obtain rfl := Option.some.inj hc
    exact ⟨fun h => hslash hlast (h ▸ hhead), fun h' => h.head?_ne (h' ▸ hhead)⟩
  | none =>
    rw [List.head?_append, hhead] at hc
    exact htail c hc

/-- **The body of a declaration** ends at the brace after its layout. -/
theorem body?_layout {separated : Bool} {fields : List Declared} {body : List Char}
    (h : IsLayout separated fields body) (rest : List Char) :
    body? (body ++ '\x7d' :: rest) = some body := by
  have hbrace : FreeStart ('\x7d' :: rest) := by
    intro c hc
    obtain rfl := Option.some.inj hc
    decide
  have hpass : PassesOver .code 0 body .code 0 ('\x7d' :: rest) := by
    -- gap and field in turn, all at depth zero
    induction h with
    | done hgap => exact passesOver_gap hgap
    | field hgap _ hspace hslash hlayout ih =>
      exact (passesOver_gap hgap).append
        ((passesOver_type (Declared.isType_text hspace) (hlayout.apart hslash hbrace)).append ih)
  rw [body?, hpass]
  show some (body ++ []) = some body
  rw [List.append_nil]

end Stencil.Payload
