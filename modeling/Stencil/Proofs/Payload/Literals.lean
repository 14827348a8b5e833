import Stencil.Proofs.Payload.Lockstep
import Stencil.Proofs.Text.Alike

/-!
# Stencil — what stands in a literal

Inside of a literal nothing is a brace, a quote or a semicolon. A body may have
a dot instead of each of them: it is cut into the same entries, which differ in
the dots only, and it is refused for the same reason.

Main results:

* `Position.after_mask` — the search goes the same way in the body with dots;
* `Cutting.Alike.move` — one character does the same to both cuttings;
* `sweep_masked` — a body and the body with dots are cut alike.
-/

namespace Stencil.Payload

open Stencil.Text Cutting

/-! ## Dots for marks -/

/-- The characters that tell how a body is cut: quotes, braces and the
semicolon. -/
def marks : List Char :=
  ['\'', '"', '\x60', '\x7b', '\x7d', ';']

def isMark (c : Char) : Bool :=
  marks.contains c

/-- The character with a dot for a mark inside of a literal. -/
def Position.maskChar (p : Position) (c : Char) : Char :=
  match p.region with
  | .literal q => if isMark c && c != q then '.' else c
  | _ => c

/-- The text with dots for the marks inside of literals, read from a place on. -/
def Position.mask (p : Position) : List Char → List Char
  | [] => []
  | c :: rest => p.maskChar c :: (p.after c rest).mask rest

/-- The body with dots for the marks inside of literals. The quotes around a
literal stay. -/
def masked (body : List Char) : List Char :=
  Position.start.mask body

/-- The same character, or a dot for a mark. -/
def Blurs (c d : Char) : Prop :=
  d = c ∨ isMark c = true ∧ d = '.'

section Blurs

variable {p : Position} {c d : Char} {rest : List Char}

theorem Blurs.refl (c : Char) : Blurs c c :=
  .inl rfl

/-- A class without marks has none of them. -/
theorem of_isMark {P : Char → Bool} (hmarks : marks.any P = false) (h : isMark c = true) :
    P c = false := by
  rw [List.any_eq_false] at hmarks
  exact Bool.eq_false_iff.mpr (hmarks c (List.contains_iff_mem.mp h))

/-- A class of characters without marks and dots does not tell the two apart. -/
theorem Blurs.class_eq {P : Char → Bool} (h : Blurs c d)
    (hmarks : marks.any P = false) (hdot : P '.' = false) : P c = P d := by
  rcases h with rfl | ⟨hmark, rfl⟩
  · rfl
  · rw [of_isMark hmarks hmark, hdot]

theorem Blurs.isBlank_eq (h : Blurs c d) : isBlank c = isBlank d :=
  h.class_eq (by decide) (by decide)

theorem Blurs.eq_of_ne (h : Blurs c d) (hd : d ≠ '.') : d = c := by
  rcases h with h | ⟨-, h⟩
  · exact h
  · exact absurd h hd

/-- A character that is no mark and no dot stands at the same places. -/
theorem Blurs.eq_iff {x : Char} (h : Blurs c d) (hdot : x ≠ '.') (hmark : isMark x = false) :
    d = x ↔ c = x := by
  rcases h with rfl | ⟨hc, rfl⟩
  · rfl
  · constructor
    · exact fun hx => absurd hx.symm hdot
    · rintro rfl
      simp [hmark] at hc

theorem Blurs.newline_iff (h : Blurs c d) : d = '\n' ↔ c = '\n' :=
  h.eq_iff (by decide) (by decide)

theorem Blurs.beq_newline (h : Blurs c d) : (d == '\n') = (c == '\n') := by
  rw [Bool.eq_iff_iff, beq_iff_eq, beq_iff_eq, h.newline_iff]

theorem blurs_maskChar (p : Position) (c : Char) : Blurs c (p.maskChar c) := by
  rw [Position.maskChar]
  split
  · split
    · rename_i hmark
      exact .inr ⟨(Bool.and_eq_true_iff.mp hmark).1, rfl⟩
    · exact .refl c
  · exact .refl c

theorem alike_mask (p : Position) (cs : List Char) : List.Forall₂ Blurs cs (p.mask cs) := by
  induction cs generalizing p with
  | nil => exact .nil
  | cons c rest ih => exact .cons (blurs_maskChar p c) (ih _)

/-- Outside of literals nothing is masked. -/
theorem maskChar_of_outside (h : p.region.quote? = none) (c : Char) : p.maskChar c = c := by
  cases hregion : p.region with
  | literal q => simp [hregion, Region.quote?] at h
  | _ => simp only [Position.maskChar, hregion]

theorem head?_mask (h : p.region.quote? = none) (cs : List Char) :
    (p.mask cs).head? = cs.head? := by
  cases cs with
  | nil => rfl
  | cons c rest => rw [Position.mask, List.head?_cons, maskChar_of_outside h, List.head?_cons]

end Blurs

/-! ## The search in a body with dots -/

section Search

variable {p : Position} {isFresh : Bool} {c : Char} {rest : List Char}

theorem opensComment_congr {rest rest' : List Char} (h : c = '/' → rest'.head? = rest.head?) :
    opensComment (c :: rest') = opensComment (c :: rest) := by
  by_cases hc : c = '/'
  · have hhead := h hc
    cases rest <;> cases rest' <;> simp_all [opensComment]
  · rw [opensComment_of_ne hc, opensComment_of_ne hc]

theorem closesComment_congr {rest rest' : List Char} (h : c = '*' → rest'.head? = rest.head?) :
    closesComment (c :: rest') = closesComment (c :: rest) := by
  by_cases hc : c = '*'
  · have hhead := h hc
    cases rest <;> cases rest' <;> simp_all [closesComment]
  · rw [closesComment_of_ne hc, closesComment_of_ne hc]

/-- A literal starts at a quote only. -/
theorem Position.quote?_after (h : p.region.quote? = none) (hc : isQuote c = false)
    (rest : List Char) : (p.after c rest).region.quote? = none := by
  obtain ⟨region, isPaired, depth⟩ := p
  cases isPaired with
  | true => exact h
  | false =>
    cases region with
    | code =>
      simp only [Position.after, hc]
      split_ifs <;> rfl
    | literal q => simp [Region.quote?] at h
    | lineComment =>
      simp only [Position.after]
      split_ifs <;> rfl
    | blockComment =>
      simp only [Position.after]
      split_ifs <;> rfl

/-- What a mark of a comment is told by is not masked. -/
theorem head?_mask_after (h : p.region.quote? = none) (hc : c = '/' ∨ c = '*') (rest : List Char) :
    ((p.after c rest).mask rest).head? = rest.head? := by
  refine head?_mask (Position.quote?_after h ?_ rest) rest
  rcases hc with rfl | rfl <;> decide

theorem region_of_quote? {region : Region} {q : Char} (h : region.quote? = some q) :
    region = .literal q := by
  cases region with
  | literal r => rw [Option.some.inj h]
  | _ => simp [Region.quote?] at h

/-- A masked character is still a character of the literal. -/
theorem maskChar_literal {q : Char} (hp : p.Sound) (h : p.region = .literal q) (c : Char) :
    (p.maskChar c = q ↔ c = q) ∧ (p.maskChar c = '\\' ↔ c = '\\') := by
  have hq := hp.quote q h
  simp only [Position.maskChar, h]
  split
  · rename_i hmark
    simp only [Bool.and_eq_true, bne_iff_ne] at hmark
    refine ⟨⟨?_, fun hc => absurd hc hmark.2⟩, ⟨fun hc => by simp at hc, ?_⟩⟩
    · rintro rfl
      exact absurd hq (by decide)
    · rintro rfl
      exact absurd hmark.1 (by decide)
  · exact ⟨Iff.rfl, Iff.rfl⟩

section Congr

variable {rest' : List Char}

/-- Only a mark of a comment is told by the character behind it. -/
theorem Position.after_congr (p : Position) (h : c = '/' ∨ c = '*' → rest'.head? = rest.head?) :
    p.after c rest' = p.after c rest := by
  have hopens := opensComment_congr (fun hc => h (.inl hc))
  have hcloses := closesComment_congr (fun hc => h (.inr hc))
  rw [Position.after, Position.after, hopens, hcloses]
  cases hmark : opensComment (c :: rest) with
  | false => rfl
  | true => rw [h (.inl (opensComment_iff.mp hmark).1)]

end Congr

/-- **The search goes the same way** in the body with dots. -/
theorem Position.after_mask (hp : p.Sound) (c : Char) (rest : List Char) :
    p.after (p.maskChar c) ((p.after c rest).mask rest) = p.after c rest := by
  by_cases hnone : p.region.quote? = none
  · rw [maskChar_of_outside hnone]
    exact Position.after_congr p fun hc => head?_mask_after hnone hc rest
  · obtain ⟨q, hq⟩ := Option.ne_none_iff_exists'.mp hnone
    obtain ⟨hquote, hslash⟩ := maskChar_literal hp (region_of_quote? hq) c
    simp only [Position.after, region_of_quote? hq, hquote, hslash]

/-- No brace that closes the body comes in. -/
theorem Position.maskChar_close (hend : c = '\x7d' → p ≠ .start) :
    p.maskChar c = '\x7d' → p ≠ .start := by
  rintro hbrace rfl
  exact hend (by rwa [maskChar_of_outside rfl] at hbrace) rfl

theorem Position.Closes.mask {cs : List Char} (hp : p.Sound) (h : p.Closes cs) :
    p.Closes (p.mask cs) := by
  induction cs generalizing p with
  | nil => exact h
  | cons c rest ih =>
    obtain ⟨hend, hcloses⟩ := h
    refine ⟨Position.maskChar_close hend, ?_⟩
    rw [Position.after_mask hp]
    exact ih (hp.after c rest) hcloses

theorem Position.takes_mask (p : Position) (c : Char) (rest : List Char) :
    p.takes (p.maskChar c) ((p.after c rest).mask rest) = p.takes c rest := by
  by_cases hnone : p.region.quote? = none
  · rw [maskChar_of_outside hnone, Position.takes, Position.takes,
      opensComment_congr fun hc => head?_mask_after hnone (.inl hc) rest]
  · obtain ⟨q, hq⟩ := Option.ne_none_iff_exists'.mp hnone
    simp only [Position.takes, region_of_quote? hq]

/-- A spot with a dot stays what it is. -/
theorem Spot.Plain.mask {isFresh : Bool} {line : Nat} (hp : p.Sound)
    (h : (⟨p, c, isFresh, line⟩ : Spot).Plain) :
    (⟨p, p.maskChar c, isFresh, line⟩ : Spot).Plain := by
  by_cases hnone : p.region.quote? = none
  · rwa [maskChar_of_outside hnone]
  · obtain ⟨q, hq⟩ := Option.ne_none_iff_exists'.mp hnone
    refine ⟨fun hc => ?_, fun hfresh hc => ?_, fun hpaired hregion => ?_⟩
    · exact h.line ((blurs_maskChar p c).newline_iff.mp hc)
    · have hsame : p.maskChar c = c :=
        (blurs_maskChar p c).eq_of_ne (by rw [show p.maskChar c = '*' from hc]; decide)
      exact h.star hfresh (hsame.symm.trans hc)
    · -- the dot is not the quote
      have hc : c = p.maskChar c := (maskChar_literal hp hregion c).1.mp rfl
      exact h.escape hpaired (hregion.trans (by rw [← hc]))

theorem isDeep_mask {isFresh : Bool} {line : Nat} :
    (⟨p, p.maskChar c, isFresh, line⟩ : Spot).isDeep =
      (⟨p, c, isFresh, line⟩ : Spot).isDeep := by
  by_cases hnone : p.region.quote? = none
  · rw [maskChar_of_outside hnone]
  · obtain ⟨q, hq⟩ := Option.ne_none_iff_exists'.mp hnone
    simp only [Spot.isDeep, region_of_quote? hq]
    rfl

end Search

/-! ## Cuttings that are alike -/

/-- Lines that differ in dots only. -/
structure CodeLine.Alike (l l' : CodeLine) : Prop where
  number : l'.number = l.number
  line : List.Forall₂ Blurs l.line l'.line

/-- Entries that differ in dots only. -/
structure Entry.Alike (e e' : Entry) : Prop where
  number : e'.number = e.number
  line : List.Forall₂ Blurs e.line e'.line
  parts : List.Forall₂ (List.Forall₂ Blurs) e.parts e'.parts

/-- Cuttings that differ in dots only. -/
structure Cutting.Alike (k k' : Cutting) : Prop where
  entries : List.Forall₂ Entry.Alike k.entries k'.entries
  current : Option.Rel Entry.Alike k.current k'.current
  stretch : List.Forall₂ Blurs k.stretch k'.stretch
  quote : k'.quote = k.quote
  depth : k'.depth = k.depth

section Alike

variable {k k' : Cutting} {l l' : CodeLine} {e e' : Entry} {c d : Char} {p : Position}

theorem alike_start : Cutting.Alike .start .start :=
  ⟨.nil, .none, .nil, rfl, rfl⟩

theorem alike_openingLine {number : Nat} {cs ds : List Char} (h : List.Forall₂ Blurs cs ds) :
    (openingLine number cs).Alike (openingLine number ds) := by
  refine ⟨rfl, alike_trim (fun _ _ => Blurs.isBlank_eq) (alike_takeWhile (fun a b hab => ?_) h)⟩
  simp [hab.newline_iff]

theorem Entry.Alike.extend (h : e.Alike e') {cs ds : List Char} (hcs : List.Forall₂ Blurs cs ds) :
    (e.extend cs).Alike (e'.extend ds) :=
  ⟨h.number, h.line, List.rel_append h.parts (.cons (List.rel_reverse hcs) .nil)⟩

theorem Cutting.Alike.current_cases (h : k.Alike k') :
    (k.current = none ∧ k'.current = none) ∨
      ∃ e e', k.current = some e ∧ k'.current = some e' ∧ e.Alike e' := by
  have hcurrent := h.current
  cases hk : k.current <;> cases hk' : k'.current <;> simp_all

/-- An entry begins in both cuttings at the same character. -/
theorem Cutting.Alike.enter (h : k.Alike k') (hl : l.Alike l') (hsame : k.current = none → d = c) :
    (k.enter l c).Alike (k'.enter l' d) := by
  rw [Cutting.enter, Cutting.enter]
  rcases h.current_cases with ⟨hk, hk'⟩ | ⟨e, e', hk, hk', -⟩
  · obtain rfl := hsame hk
    simp only [hk, hk']
    split
    · exact h
    · exact ⟨h.entries, .some ⟨hl.number, hl.line, .nil⟩, h.stretch, h.quote, h.depth⟩
  · simp only [hk, hk']
    exact h

theorem Cutting.Alike.keep (h : k.Alike k') (hl : l.Alike l') (hcd : Blurs c d)
    (hsame : k.current = none → d = c) (quote : Option Char) (depth : Nat) :
    (k.keep l c quote depth).Alike (k'.keep l' d quote depth) :=
  have henter := h.enter hl hsame
  ⟨henter.entries, henter.current, .cons hcd henter.stretch, rfl, rfl⟩

theorem Cutting.Alike.close (h : k.Alike k') : k.close.Alike k'.close := by
  refine ⟨List.rel_append h.entries ?_, .none, .nil, h.quote, h.depth⟩
  rcases h.current_cases with ⟨hk, hk'⟩ | ⟨e, e', hk, hk', he⟩
  · rw [hk, hk']
    exact .nil
  · rw [hk, hk']
    exact .cons (he.extend h.stretch) .nil

theorem Cutting.Alike.endLine (h : k.Alike k') : k.endLine.Alike k'.endLine := by
  rw [Cutting.endLine, Cutting.endLine, h.depth]
  rcases h.current_cases with ⟨hk, hk'⟩ | ⟨e, e', hk, hk', he⟩
  · simp only [hk, hk']
    exact ⟨h.entries, .none, .nil, rfl, rfl⟩
  · simp only [hk, hk']
    have hextended := he.extend h.stretch
    split
    · exact ⟨List.rel_append h.entries (.cons hextended .nil), .none, .nil, rfl, rfl⟩
    · exact ⟨h.entries, .some hextended, .nil, rfl, rfl⟩

/-- A literal stands inside of an entry. -/
def Cutting.Held (k : Cutting) : Prop :=
  k.quote ≠ none → k.current ≠ none

theorem Cutting.Held.follow (hk : k.Held) (h : Agrees p k) (l : CodeLine) (rest : List Char) :
    (k.follow l p c rest).Held := by
  rw [Cutting.follow]
  split
  · rename_i hends
    simp only [Position.ends, Bool.and_eq_true, beq_iff_eq] at hends
    intro hquote
    exact absurd (h.quote.trans (by rw [hends.1.1]; rfl)) hquote
  · intro hquote
    show (k.enter l c).current ≠ none
    rw [enter]
    split
    · rename_i e he
      simp [he]
    · -- the literal starts here, and the entry with it
      rename_i hcurrent
      have hnone : p.region.quote? = none := by
        by_contra hopen
        exact hk (by rwa [h.quote]) hcurrent
      have hc : isQuote c = true := by
        by_contra hc
        exact hquote (Position.quote?_after hnone (by simpa using hc) rest)
      have hblank : isBlank c = false := by
        by_contra hblank
        simp [(IsOrdinary.of_isBlank (by simpa using hblank)).notQuote] at hc
      have hsemi : c ≠ ';' := ne_of_isQuote hc (by decide)
      simp [hblank, hsemi]

theorem Cutting.Alike.follow (h : k.Alike k') (hl : l.Alike l') (hp : p.Sound) (hk : k.Held)
    (hagrees : Agrees p k) (c : Char) (rest : List Char) :
    (k.follow l p c rest).Alike
      (k'.follow l' p (p.maskChar c) ((p.after c rest).mask rest)) := by
  -- a mark that is masked stands in an entry and ends none
  have hends : p.ends (p.maskChar c) = p.ends c := by
    by_cases hnone : p.region.quote? = none
    · rw [maskChar_of_outside hnone]
    · obtain ⟨q, hq⟩ := Option.ne_none_iff_exists'.mp hnone
      simp only [Position.ends, region_of_quote? hq]
      rfl
  have hsame : k.current = none → p.maskChar c = c := by
    intro hcurrent
    refine maskChar_of_outside ?_ c
    by_contra hquote
    exact hk (by rwa [hagrees.quote]) hcurrent
  rw [Cutting.follow, Cutting.follow, hends, Position.after_mask hp]
  split
  · exact h.close
  · exact h.keep hl (blurs_maskChar p c) hsame _ _

theorem Cutting.Held.move (hk : k.Held) (h : Agrees p k) (l : CodeLine) (c : Char)
    (rest : List Char) : (k.move l p c rest).Held := by
  rw [Cutting.move]
  split
  · exact fun hquote => absurd (endLine_quote k) hquote
  split
  · exact hk.follow h l rest
  · exact hk

/-- **One character** does the same to both cuttings. -/
theorem Cutting.Alike.move (h : k.Alike k') (hl : l.Alike l') (hp : p.Sound) (hk : k.Held)
    (hagrees : Agrees p k) (c : Char) (rest : List Char) :
    (k.move l p c rest).Alike (k'.move l' p (p.maskChar c) ((p.after c rest).mask rest)) := by
  rw [Cutting.move, Cutting.move, Position.takes_mask p]
  simp only [(blurs_maskChar p c).newline_iff]
  split
  · exact h.endLine
  split
  · exact h.follow hl hp hk hagrees c rest
  · exact h

theorem CodeLine.Alike.next (hl : l.Alike l') (p : Position) (c : Char) (rest : List Char) :
    (l.next c rest).Alike (l'.next (p.maskChar c) ((p.after c rest).mask rest)) := by
  rw [CodeLine.next, CodeLine.next]
  simp only [(blurs_maskChar p c).newline_iff]
  split
  · rw [hl.number]
    exact alike_openingLine (alike_mask _ rest)
  · exact hl

end Alike

/-! ## The pass over a body with dots -/

/-- Both results are alike, or both readings fail with the same flaw in lines that
differ in dots only. -/
inductive SameOutcome {α : Type} (R : α → α → Prop) :
    Except ParseError α → Except ParseError α → Prop
  | ok {a b : α} : R a b → SameOutcome R (.ok a) (.ok b)
  | error {flaw : Flaw} {source : String} {number : Nat} {line line' : List Char} :
      List.Forall₂ Blurs line line' →
      SameOutcome R (.error ⟨flaw, source, some number, some (String.ofList line)⟩)
        (.error ⟨flaw, source, some number, some (String.ofList line')⟩)

section Pass

variable {p : Position} {isFresh fresh : Bool} {line : Nat} {l l' : CodeLine} {k k' : Cutting}
  {source : String} {c : Char} {rest : List Char}

theorem Agrees.of_alike (h : Agrees p k) (halike : k.Alike k') : Agrees p k' :=
  ⟨halike.quote.trans h.quote, halike.depth.trans h.depth⟩

/-- **A body and the body with dots are cut alike.** -/
theorem sweep_masked {fresh' : Bool} (h : k.Alike k') (hl : l.Alike l') (hk : k.Held)
    (hagrees : Agrees p k) (hp : p.Sound) (hcloses : p.Closes rest)
    (hspots : ∀ s ∈ spotsFrom p isFresh line rest, s.Plain)
    (hfresh : fresh = true → isFresh = true) (hfresh' : fresh' = true → isFresh = true) :
    SameOutcome Cutting.Alike (sweep source (p.stand fresh) l k rest)
      (sweep source (p.stand fresh') l' k' (p.mask rest)) := by
  induction rest generalizing p isFresh fresh fresh' line l l' k k' with
  | nil => exact .ok h.endLine
  | cons c rest ih =>
    rw [spotsFrom, List.forall_mem_cons] at hspots
    obtain ⟨hspot, hspots⟩ := hspots
    obtain ⟨hend, hcloses⟩ := hcloses
    rw [Position.mask]
    have hagrees' := hagrees.of_alike h
    by_cases hdeep : (⟨p, c, isFresh, line⟩ : Spot).isDeep = true
    · -- both fail at this brace
      rw [sweep_deep hagrees hdeep, sweep_deep hagrees' (isDeep_mask.trans hdeep), hl.number]
      exact .error hl.line
    · obtain ⟨hnext, fresh₁, hfresh₁, hstep⟩ := sweep_step hagrees hp hspot hend hfresh hdeep
      obtain ⟨-, fresh₂, hfresh₂, hstep'⟩ := sweep_step hagrees' hp (hspot.mask hp)
        (Position.maskChar_close hend) hfresh' (by rwa [isDeep_mask])
      rw [hstep, hstep', Position.after_mask hp]
      refine ih (h.move hl hp hk hagrees c rest) (hl.next p c rest) (hk.move hagrees l c rest) hnext
        (hp.after c rest) hcloses hspots hfresh₁ fun hf => ?_
      have hsame := hfresh₂ hf
      rwa [(blurs_maskChar p c).beq_newline, ← (blurs_maskChar p c).isBlank_eq] at hsame

end Pass

end Stencil.Payload
