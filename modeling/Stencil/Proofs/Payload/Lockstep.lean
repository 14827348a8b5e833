import Stencil.Proofs.Payload.Scan
import Stencil.Proofs.Payload.Sweep

/-!
# Stencil — the cutting follows the search

The search for the closing brace and the cutting into entries read the same
body, the one as a whole and the other line by line. They agree on what is
code, literal and comment and on how many braces are open, as long as every
literal ends on its line, no line outside of block comments starts with a star,
and no literal holds its own quote behind a backslash: the cutting does not know
backslashes.

Main results:

* `sweep_step` — one character;
* `sweep_follows` — a whole body;
* `parse_follows` — reading a declaration.
-/

namespace Stencil.Payload

open Stencil.Text Cutting

/-- The quote of the literal. -/
def Region.quote? : Region → Option Char
  | .literal q => some q
  | _ => none

/-- A body of which every line can be read for itself. -/
structure LineByLine (body : List Char) : Prop where
  /-- No literal goes over the end of a line. -/
  literals : ∀ s ∈ spots body, s.char = '\n' → s.region.quote? = none
  /-- No line starts with a star, except in a block comment. -/
  stars : ∀ s ∈ spots body, s.isFresh = true → s.char = '*' → s.region = .blockComment

/-- No literal of the body holds its own quote behind a backslash. -/
def QuotesUnescaped (body : List Char) : Prop :=
  ∀ s ∈ spots body, s.isPaired = true → s.region ≠ .literal s.char

instance (body : List Char) : Decidable (QuotesUnescaped body) :=
  inferInstanceAs (Decidable (∀ s ∈ spots body, s.isPaired = true → s.region ≠ .literal s.char))

/-- A spot at which search and cutting agree. -/
structure Spot.Plain (s : Spot) : Prop where
  line : s.char = '\n' → s.region.quote? = none
  star : s.isFresh = true → s.char = '*' → s.region = .blockComment
  escape : s.isPaired = true → s.region ≠ .literal s.char

theorem LineByLine.plain {body : List Char} (hlines : LineByLine body)
    (hescape : QuotesUnescaped body) : ∀ s ∈ spots body, s.Plain :=
  fun s hs => ⟨hlines.literals s hs, hlines.stars s hs, hescape s hs⟩

/-- A brace of the code that opens inside of another one. The character that
closes the mark of a comment is no code. -/
def Spot.isDeep (s : Spot) : Bool :=
  s.region == .code && !s.isPaired && s.char == '\x7b' && s.depth != 0

/-- The stand of a pass that is where the search is. -/
def Position.stand (p : Position) (isFresh : Bool) : Stand :=
  ⟨p.region, isFresh, p.isPaired⟩

/-- The cutting is where the search is. -/
structure Agrees (p : Position) (k : Cutting) : Prop where
  quote : k.quote = p.region.quote?
  depth : k.depth = p.depth

section Step

variable {p : Position} {isFresh : Bool} {k : Cutting} {c : Char} {rest : List Char}

/-! ## The pass and the search -/

/-- In code no star comes first on a line. -/
theorem noStar_of_code (hregion : p.region = .code)
    (hstar : isFresh = true → c = '*' → p.region = .blockComment) :
    (isFresh && c == '*') = false := by
  by_contra h
  simp only [Bool.not_eq_false, Bool.and_eq_true, beq_iff_eq] at h
  simpa [hregion] using hstar h.1 h.2

/-- On a line the pass moves like the search. -/
theorem Position.stand_after (hp : p.Sound) (hc : c ≠ '\n')
    (hstar : isFresh = true → c = '*' → p.region = .blockComment) (rest : List Char) :
    ∃ isFresh', (p.stand isFresh).after c rest = (p.after c rest).stand isFresh' ∧
      (isFresh' = true → isFresh = true ∧ isBlank c = true) := by
  obtain ⟨region, isPaired, depth⟩ := p
  cases region with
  | code =>
    cases isPaired with
    | true => exact ⟨false, rfl, by simp⟩
    | false =>
      have hnoStar := noStar_of_code rfl hstar
      cases hopens : opensComment (c :: rest) with
      | true =>
        refine ⟨false, ?_, by simp⟩
        by_cases hline : rest.head? = some '/' <;>
          simp [Position.stand, Stand.after, Position.after, Stand.within, hopens, hline]
      | false =>
        refine ⟨isFresh && isBlank c, ?_, by simp⟩
        -- a brace is no quote
        by_cases hbrace : c = '\x7b' ∨ c = '\x7d'
        · rcases hbrace with rfl | rfl <;>
            simp [Position.stand, Stand.after, Position.after, hopens, isQuote]
        · rw [not_or] at hbrace
          simp [Position.stand, Stand.after, Position.after, hopens, hnoStar, hbrace]
  | literal q =>
    refine ⟨false, ?_, by simp⟩
    cases isPaired with
    | true => rfl
    | false =>
      by_cases hescape : c = '\\' <;>
        simp [Position.stand, Stand.after, Position.after, Stand.within, hescape]
  | lineComment =>
    obtain rfl : isPaired = false := hp.unpaired rfl
    exact ⟨false, by simp [Position.stand, Stand.after, Position.after, Stand.within, hc], by simp⟩
  | blockComment =>
    refine ⟨false, ?_, by simp⟩
    cases isPaired with
    | true => rfl
    | false =>
      cases hcloses : closesComment (c :: rest) <;>
        simp [Position.stand, Stand.after, Position.after, Stand.within, hcloses]

/-- Whether the character is taken in: a character of code or of a literal. -/
def Position.takes (p : Position) (c : Char) (rest : List Char) : Bool :=
  match p.region with
  | .code => !p.isPaired && !opensComment (c :: rest)
  | .literal _ => true
  | .lineComment => false
  | .blockComment => false

theorem Position.takes_stand (hstar : isFresh = true → c = '*' → p.region = .blockComment) :
    (p.stand isFresh).takes c rest = p.takes c rest := by
  rw [Stand.takes, Position.takes, Position.stand]
  cases hregion : p.region with
  | code => simp [noStar_of_code hregion hstar]
  | _ => rfl

/-- The next line is read like the first one, unless a block comment goes on. -/
theorem Position.stand_nextLine (isFresh : Bool) (hp : p.Sound) (hline : p.region.quote? = none)
    (rest : List Char) :
    ∃ isFresh', (p.stand isFresh).nextLine = (p.after '\n' rest).stand isFresh' ∧
      (p.after '\n' rest).region.quote? = none ∧ (p.after '\n' rest).depth = p.depth := by
  obtain ⟨region, isPaired, depth⟩ := p
  have hopen : opensComment ('\n' :: rest) = false := opensComment_of_ne (by decide)
  have hclose : closesComment ('\n' :: rest) = false := closesComment_of_ne (by decide)
  cases region with
  | code =>
    have hafter : (⟨.code, isPaired, depth⟩ : Position).after '\n' rest = ⟨.code, false, depth⟩ := by
      cases isPaired <;> simp [Position.after, hopen, isQuote]
    rw [hafter]
    exact ⟨true, rfl, rfl, rfl⟩
  | literal q => simp [Region.quote?] at hline
  | lineComment =>
    obtain rfl : isPaired = false := hp.unpaired rfl
    exact ⟨true, rfl, rfl, rfl⟩
  | blockComment =>
    have hafter : (⟨.blockComment, isPaired, depth⟩ : Position).after '\n' rest =
        ⟨.blockComment, false, depth⟩ := by
      cases isPaired <;> simp [Position.after, hclose]
    rw [hafter]
    exact ⟨false, rfl, rfl, rfl⟩

/-! ## The cutting and the search -/

theorem agrees_start : Agrees .start .start :=
  ⟨rfl, rfl⟩

@[simp]
theorem endLine_quote (k : Cutting) : k.endLine.quote = none := by
  rw [endLine]
  split
  · rfl
  · split <;> rfl

@[simp]
theorem endLine_depth (k : Cutting) : k.endLine.depth = k.depth := by
  rw [endLine]
  split
  · rfl
  · split <;> rfl

/-- **A character that is passed over** belongs to a comment. -/
theorem Agrees.passed (h : Agrees p k) (hp : p.Sound) (hc : c ≠ '\n')
    (htakes : p.takes c rest = false) : Agrees (p.after c rest) k := by
  obtain ⟨region, isPaired, depth⟩ := p
  obtain ⟨hquote, hdepth⟩ := h
  cases region with
  | code =>
    cases isPaired with
    | true => exact ⟨hquote, hdepth⟩
    | false =>
      have hopens : opensComment (c :: rest) = true := by simpa [Position.takes] using htakes
      -- no literal is open in the comment
      by_cases hline : rest.head? = some '/' <;>
        simp only [Position.after, hopens, hline] <;> exact ⟨hquote, hdepth⟩
  | literal q => simp [Position.takes] at htakes
  | lineComment =>
    obtain rfl : isPaired = false := hp.unpaired rfl
    simp only [Position.after, hc]
    exact ⟨hquote, hdepth⟩
  | blockComment =>
    cases isPaired with
    | true => exact ⟨hquote, hdepth⟩
    | false =>
      cases hcloses : closesComment (c :: rest) <;>
        simp only [Position.after, hcloses] <;> exact ⟨hquote, hdepth⟩

/-- Whether the character ends an entry. -/
def Position.ends (p : Position) (c : Char) : Bool :=
  p.region == .code && c == ';' && p.depth == 0

/-- The cutting with one character more: it ends the entry, or it is kept and the
cutting goes where the search goes. -/
def Cutting.follow (l : CodeLine) (k : Cutting) (p : Position) (c : Char) (rest : List Char) :
    Cutting :=
  if p.ends c then k.close
  else k.keep l c (p.after c rest).region.quote? (p.after c rest).depth

/-- A literal ends at its quote, and at nothing else. -/
theorem Position.after_literal {q : Char} (hp : p.Sound) (hregion : p.region = .literal q)
    (hescape : p.isPaired = true → p.region ≠ .literal c) (rest : List Char) :
    (p.after c rest).region.quote? = (if c = q then none else some q) ∧
      (p.after c rest).depth = p.depth := by
  obtain ⟨region, isPaired, depth⟩ := p
  obtain rfl : region = .literal q := hregion
  cases isPaired with
  | true =>
    have hne : c ≠ q := fun hc => hescape rfl (by rw [hc])
    rw [if_neg hne]
    exact ⟨rfl, rfl⟩
  | false =>
    -- a backslash is no quote
    have hslash : '\\' ≠ q := by
      rintro rfl
      exact absurd (hp.quote _ rfl) (by decide)
    by_cases hc : c = '\\'
    · subst hc
      simp [Position.after, hslash, Region.quote?]
    by_cases hq : c = q
    · subst hq
      simp [Position.after, hc, Region.quote?]
    · simp [Position.after, hc, hq, Region.quote?]

/-- What a character does to the search in code. -/
theorem Position.after_code (depth : Nat) (hopens : opensComment (c :: rest) = false) :
    (⟨.code, false, depth⟩ : Position).after c rest =
      if isQuote c then ⟨.literal c, false, depth⟩
      else if c = '\x7b' then ⟨.code, false, depth + 1⟩
      else if c = '\x7d' then ⟨.code, false, depth - 1⟩
      else ⟨.code, false, depth⟩ := by
  by_cases hquote : isQuote c = true
  · have hopen : c ≠ '\x7b' := ne_of_isQuote hquote (by decide)
    have hclose : c ≠ '\x7d' := ne_of_isQuote hquote (by decide)
    simp [Position.after, hopens, hquote, hopen, hclose]
  · simp only [Position.after, hopens, hquote]
    rfl

theorem Agrees.take_code (h : Agrees p k) (l : CodeLine) (hregion : p.region = .code)
    (hpaired : p.isPaired = false) (hopens : opensComment (c :: rest) = false)
    (hend : c = '\x7d' → p.depth ≠ 0) (hdeep : c = '\x7b' → p.depth = 0) :
    k.take l c = .ok (k.follow l p c rest) := by
  obtain ⟨region, isPaired, depth⟩ := p
  obtain ⟨rfl, rfl⟩ : region = .code ∧ isPaired = false := ⟨hregion, hpaired⟩
  have hnone : k.quote = none := h.quote
  have hdepth : k.depth = depth := h.depth
  simp only [Cutting.follow, Position.after_code depth hopens, Position.ends]
  by_cases hquote : isQuote c = true
  · have hsemi : c ≠ ';' := ne_of_isQuote hquote (by decide)
    simp [take_quote hnone hquote, hquote, hdepth, hsemi, Region.quote?]
  by_cases hopen : c = '\x7b'
  · subst hopen
    simp [take_open hnone, hdepth, show depth = 0 from hdeep rfl, hquote, Region.quote?]
  by_cases hclose : c = '\x7d'
  · subst hclose
    simp [take_close hnone, hdepth, show depth ≠ 0 from hend rfl, hquote, Region.quote?]
  by_cases hsemi : c = ';'
  · subst hsemi
    by_cases hzero : depth = 0 <;>
      simp [take_semicolon hnone, hdepth, hzero, hquote, Region.quote?]
  · have hordinary : IsOrdinary c := ⟨by simpa using hquote, hopen, hclose, hsemi⟩
    simp [take_ordinary hnone hordinary, hdepth, hquote, hopen, hclose, hsemi, Region.quote?]

/-- **A character that is taken in** does to the cutting what it does to the
search. -/
theorem Agrees.take_eq (h : Agrees p k) (hp : p.Sound) (l : CodeLine)
    (hescape : p.isPaired = true → p.region ≠ .literal c) (hend : c = '\x7d' → p ≠ .start)
    (hdeep : p.region = .code → p.isPaired = false → c = '\x7b' → p.depth = 0)
    (htakes : p.takes c rest = true) :
    k.take l c = .ok (k.follow l p c rest) := by
  cases hregion : p.region with
  | code =>
    simp only [Position.takes, hregion, Bool.and_eq_true, Bool.not_eq_true'] at htakes
    obtain ⟨hpaired, hopens⟩ := htakes
    refine h.take_code l hregion hpaired hopens (fun hc hdepth => hend hc ?_)
      (hdeep hregion hpaired)
    obtain ⟨region, isPaired, depth⟩ := p
    simp_all [Position.start]
  | literal q =>
    obtain ⟨hquote, hdepth⟩ := Position.after_literal hp hregion hescape rest
    have hk : k.quote = some q := by rw [h.quote, hregion]; rfl
    have hends : p.ends c = false := by simp [Position.ends, hregion]
    simp only [take_quoted hk, Cutting.follow, hends, hquote, hdepth, h.depth]
    rfl
  | lineComment => simp [Position.takes, hregion] at htakes
  | blockComment => simp [Position.takes, hregion] at htakes

theorem Agrees.follow (h : Agrees p k) (l : CodeLine) (rest : List Char) :
    Agrees (p.after c rest) (k.follow l p c rest) := by
  rw [Cutting.follow]
  split
  · rename_i hends
    simp only [Position.ends, Bool.and_eq_true, beq_iff_eq] at hends
    obtain ⟨⟨hregion, rfl⟩, hdepth⟩ := hends
    obtain ⟨region, isPaired, depth⟩ := p
    obtain ⟨rfl, rfl⟩ : region = .code ∧ depth = 0 := ⟨hregion, hdepth⟩
    have hopens : opensComment (';' :: rest) = false := opensComment_of_ne (by decide)
    have hafter : (⟨.code, isPaired, 0⟩ : Position).after ';' rest = ⟨.code, false, 0⟩ := by
      cases isPaired <;> simp [Position.after, hopens, isQuote]
    rw [hafter]
    exact ⟨h.quote, h.depth⟩
  · exact ⟨rfl, rfl⟩

/-- A brace inside of another one is refused. -/
theorem Agrees.take_deep (h : Agrees p k) (l : CodeLine) (hregion : p.region = .code)
    (hdepth : p.depth ≠ 0) : k.take l '\x7b' = .error .tooDeep := by
  have hquote : k.quote = none := by rw [h.quote, hregion]; rfl
  rw [take_open hquote, h.depth, if_neg hdepth]

end Step

/-! ## One step of the pass -/

/-- The line of the next character. -/
def CodeLine.next (l : CodeLine) (c : Char) (rest : List Char) : CodeLine :=
  if c = '\n' then openingLine (l.number + 1) rest else l

/-- The cutting behind one character of a body. -/
def Cutting.move (l : CodeLine) (k : Cutting) (p : Position) (c : Char) (rest : List Char) :
    Cutting :=
  if c = '\n' then k.endLine else if p.takes c rest then k.follow l p c rest else k

section Run

variable {p : Position} {isFresh fresh : Bool} {line first : Nat} {l : CodeLine} {k : Cutting}
  {source : String} {c : Char} {rest : List Char}

theorem takeAll_of_ok {k' : Cutting} (h : k.take l c = .ok k') :
    k.takeAll source l [c] = .ok k' := by
  rw [takeAll_cons_of_ok h]
  rfl

theorem takeAll_of_error {flaw : Flaw} (h : k.take l c = .error flaw) :
    k.takeAll source l [c] = .error ⟨flaw, source, some l.number, some (String.ofList l.line)⟩ := by
  simp [takeAll, h]

/-- At a brace that opens inside of another one the pass fails. -/
theorem sweep_deep (h : Agrees p k)
    (hdeep : (⟨p, c, isFresh, line⟩ : Spot).isDeep = true) :
    sweep source (p.stand fresh) l k (c :: rest) =
      .error ⟨.tooDeep, source, some l.number, some (String.ofList l.line)⟩ := by
  simp only [Spot.isDeep, Bool.and_eq_true, beq_iff_eq, bne_iff_ne, Bool.not_eq_true'] at hdeep
  obtain ⟨⟨⟨hregion, hpaired⟩, rfl⟩, hdepth⟩ := hdeep
  have htakes : (p.stand fresh).takes '\x7b' rest = true := by
    simp [Position.stand, Stand.takes, hregion, hpaired, opensComment_of_ne]
  rw [sweep_takes (by decide) htakes, takeAll_of_error (h.take_deep l hregion hdepth)]
  rfl

/-- **At every other character** the pass and the cutting go where the search
goes. -/
theorem sweep_step (h : Agrees p k) (hp : p.Sound)
    (hspot : (⟨p, c, isFresh, line⟩ : Spot).Plain) (hend : c = '\x7d' → p ≠ .start)
    (hfresh : fresh = true → isFresh = true)
    (hdeep : (⟨p, c, isFresh, line⟩ : Spot).isDeep ≠ true) :
    Agrees (p.after c rest) (k.move l p c rest) ∧
      ∃ fresh', (fresh' = true → (c == '\n' || isFresh && isBlank c) = true) ∧
        sweep source (p.stand fresh) l k (c :: rest) =
          sweep source ((p.after c rest).stand fresh') (l.next c rest) (k.move l p c rest) rest := by
  by_cases hc : c = '\n'
  · -- the next line
    subst hc
    obtain ⟨fresh', hstand, hregion, hdepth⟩ :=
      Position.stand_nextLine fresh hp (hspot.line rfl) rest
    rw [Cutting.move, if_pos rfl, CodeLine.next, if_pos rfl, sweep_newline, hstand]
    exact ⟨⟨by rw [endLine_quote, hregion], by rw [endLine_depth, hdepth, h.depth]⟩,
      fresh', fun _ => rfl, rfl⟩
  have hstar : fresh = true → c = '*' → p.region = .blockComment :=
    fun hf => hspot.star (hfresh hf)
  obtain ⟨fresh', hstand, hnext⟩ := Position.stand_after hp hc hstar rest
  have hnext' : fresh' = true → (c == '\n' || isFresh && isBlank c) = true := by
    intro hf
    rw [hfresh (hnext hf).1, (hnext hf).2]
    simp
  have htakes : (p.stand fresh).takes c rest = p.takes c rest := Position.takes_stand hstar
  rw [Cutting.move, if_neg hc, CodeLine.next, if_neg hc]
  cases hp' : p.takes c rest with
  | false =>
    rw [sweep_passes hc (htakes.trans hp'), hstand]
    exact ⟨h.passed hp hc hp', fresh', hnext', rfl⟩
  | true =>
    have htake : k.take l c = .ok (k.follow l p c rest) := by
      refine h.take_eq hp l hspot.escape hend (fun hregion hpaired hopen => ?_) hp'
      by_contra hdepth
      exact hdeep (by simp [Spot.isDeep, hregion, hpaired, hopen, hdepth])
    rw [sweep_takes hc (htakes.trans hp'), takeAll_of_ok htake, hstand]
    exact ⟨h.follow l rest, fresh', hnext', rfl⟩

/-! ## A whole body -/

theorem current_endLine (h : k.depth = 0) : k.endLine.current = none := by
  rw [endLine]
  cases hcurrent : k.current with
  | none => rfl
  | some e => simp [h]

theorem number_next (h : l.number = first + line) :
    (l.next c rest).number = first + if c = '\n' then line + 1 else line := by
  rw [CodeLine.next]
  split
  · show l.number + 1 = _
    omega
  · exact h

/-- **The pass over a body** fails at the first brace that opens inside of
another one, and comes to the end of the body if there is none. -/
theorem sweep_follows (source : String) (h : Agrees p k) (hp : p.Sound) (hcloses : p.Closes rest)
    (hspots : ∀ s ∈ spotsFrom p isFresh line rest, s.Plain)
    (hfresh : fresh = true → isFresh = true) (hnumber : l.number = first + line) :
    (∃ k', (spotsFrom p isFresh line rest).find? Spot.isDeep = none ∧
      sweep source (p.stand fresh) l k rest = .ok k' ∧ k'.current = none) ∨
    ∃ s text, (spotsFrom p isFresh line rest).find? Spot.isDeep = some s ∧
      sweep source (p.stand fresh) l k rest =
        .error ⟨.tooDeep, source, some (first + s.line), some text⟩ := by
  induction rest generalizing p isFresh fresh line l k with
  | nil =>
    obtain rfl : p = .start := hcloses
    exact .inl ⟨k.endLine, rfl, rfl, current_endLine h.depth⟩
  | cons c rest ih =>
    rw [spotsFrom, List.forall_mem_cons] at hspots
    obtain ⟨hspot, hspots⟩ := hspots
    obtain ⟨hend, hcloses⟩ := hcloses
    rw [spotsFrom]
    by_cases hdeep : (⟨p, c, isFresh, line⟩ : Spot).isDeep = true
    · rw [List.find?_cons_of_pos hdeep, sweep_deep h hdeep, hnumber]
      exact .inr ⟨_, _, rfl, rfl⟩
    · obtain ⟨hnext, fresh', hfresh', hstep⟩ := sweep_step h hp hspot hend hfresh hdeep
      rw [List.find?_cons_of_neg hdeep, hstep]
      exact ih hnext (hp.after c rest) hcloses hspots hfresh' (number_next hnumber)

/-- What is wrong with an entry that is no field. -/
def Flaw.isOfField : Flaw → Bool
  | .notAField => true
  | .noType _ => true
  | .repeated _ _ => true
  | _ => false

theorem isOfField_of_fieldsOf {earlier : List (String × Nat)} {es : List Entry} {e : ParseError}
    (h : fieldsOf source earlier es = .error e) : e.flaw.isOfField = true := by
  induction es generalizing earlier with
  | nil => simp [fieldsOf] at h
  | cons entry es ih =>
    simp only [fieldsOf] at h
    split at h
    · exact Except.error.inj h ▸ rfl
    rename_i parts _
    split at h
    · exact Except.error.inj h ▸ rfl
    split at h
    · exact Except.error.inj h ▸ rfl
    · -- one of the entries behind it
      cases hrest : fieldsOf source (earlier ++ [(String.ofList parts.name, entry.number)]) es with
      | ok fields => simp [hrest, Except.map] at h
      | error e' =>
        rw [hrest] at h
        exact ih (hrest.trans (congrArg Except.error (Except.error.inj h)))

/-- **Reading a declaration** fails at the first brace that opens inside of
another one, or at an entry that is no field, or not at all. -/
theorem parse_follows {text : String} {body : List Char} {firstLine : Nat}
    (h : declaredBody source text.toList = .ok (body, firstLine)) (hlines : LineByLine body)
    (hescape : QuotesUnescaped body) :
    ((spots body).find? Spot.isDeep = none ∧
      ∀ e, Payload.parse text source = .error e → e.flaw.isOfField = true) ∨
    ∃ s line, (spots body).find? Spot.isDeep = some s ∧
      Payload.parse text source = .error ⟨.tooDeep, source, some (firstLine + s.line), some line⟩ := by
  rw [parse_of_declaredBody h]
  rcases sweep_follows source (l := openingLine firstLine body) agrees_start
      Position.sound_start (closes_of_declaredBody h) (hlines.plain hescape) (fun _ => rfl) rfl with
    ⟨k, hnone, hsweep, hcurrent⟩ | ⟨s, line, hfound, hsweep⟩
  · have hbody : sweepBody source body firstLine = .ok k.entries := by
      show (sweep source (Position.start.stand true) _ _ body).bind (finish source) = _
      rw [hsweep]
      show finish source k = .ok k.entries
      rw [finish, hcurrent]
    refine .inl ⟨hnone, fun e he => ?_⟩
    rw [hbody] at he
    cases hfields : fieldsOf source [] k.entries with
    | ok fields => simp [Except.bind, hfields, Except.map] at he
    | error e' =>
      simp only [Except.bind, hfields, Except.map, Except.error.injEq] at he
      exact he ▸ isOfField_of_fieldsOf hfields
  · have hbody : sweepBody source body firstLine =
        .error ⟨.tooDeep, source, some (firstLine + s.line), some line⟩ := by
      show (sweep source (Position.start.stand true) _ _ body).bind (finish source) = _
      rw [hsweep]
      rfl
    exact .inr ⟨s, line, hfound, by rw [hbody]; rfl⟩

end Run

end Stencil.Payload
