import Stencil.Payload.Reader
import Stencil.Proofs.Text.Blank

/-!
# Stencil — entries up to blanks

The text of an entry does not depend on the blanks at the ends of its
stretches, nor on stretches of blanks. An entry without them is tidy, and so is
a cutting of which every entry is. Cutting goes on in the same way from two
cuttings that are the same when tidied, so that blanks may be added at the ends
of a line.

Main results:

* `take_cases`, `take_congr` — what one character does, to one cutting and to two
  that stand alike;
* `takeAll_tidy` — a cutting may be tidied before a stretch of code is cut;
* `takeAll_padded` — a line of code may stand between blanks.
-/

namespace Stencil.Payload

open Stencil.Text

/-! ## One character of code -/

/-- A character that is neither a quote nor a brace nor a semicolon. -/
structure IsOrdinary (c : Char) : Prop where
  notQuote : isQuote c = false
  notOpen : c ≠ '\x7b'
  notClose : c ≠ '\x7d'
  notEnd : c ≠ ';'

theorem ne_of_isBlank {c d : Char} (hc : isBlank c = true) (hd : isBlank d = false) : c ≠ d := by
  rintro rfl
  rw [hc] at hd
  simp at hd

theorem IsOrdinary.of_isBlank {c : Char} (hc : isBlank c = true) : IsOrdinary c := by
  refine ⟨?_, ne_of_isBlank hc (by decide), ne_of_isBlank hc (by decide),
    ne_of_isBlank hc (by decide)⟩
  simp only [isQuote, Bool.or_eq_false_iff, beq_eq_false_iff_ne]
  exact ⟨⟨ne_of_isBlank hc (by decide), ne_of_isBlank hc (by decide)⟩,
    ne_of_isBlank hc (by decide)⟩

namespace Cutting

/-- Adds a character to the stretch, and sets the quote and the depth. -/
def keep (l : CodeLine) (k : Cutting) (c : Char) (quote : Option Char) (depth : Nat) : Cutting :=
  let k := k.enter l c
  { k with stretch := c :: k.stretch, quote, depth }

section Take

variable {l : CodeLine} {k : Cutting} {c q : Char}

@[simp]
theorem enter_quote (l : CodeLine) (k : Cutting) (c : Char) : (k.enter l c).quote = k.quote := by
  rw [enter]
  split
  · rfl
  · split <;> rfl

@[simp]
theorem enter_depth (l : CodeLine) (k : Cutting) (c : Char) : (k.enter l c).depth = k.depth := by
  rw [enter]
  split
  · rfl
  · split <;> rfl

theorem take_quoted (hq : k.quote = some q) :
    k.take l c = .ok (k.keep l c (if c = q then none else some q) k.depth) := by
  simp only [take, keep, enter_quote, enter_depth, hq]

theorem take_quote (hq : k.quote = none) (hc : isQuote c = true) :
    k.take l c = .ok (k.keep l c (some c) k.depth) := by
  simp only [take, keep, enter_quote, enter_depth, hq, hc, if_true]

theorem take_open (hq : k.quote = none) :
    k.take l '\x7b' =
      if k.depth = 0 then .ok (k.keep l '\x7b' none 1) else .error .tooDeep := by
  have hc : isQuote '\x7b' = false := rfl
  simp [take, keep, hq, hc]

theorem take_close (hq : k.quote = none) :
    k.take l '\x7d' =
      if k.depth = 0 then .error .strayBrace
      else .ok (k.keep l '\x7d' none (k.depth - 1)) := by
  have hc : isQuote '\x7d' = false := rfl
  cases hdepth : k.depth <;> simp [take, keep, hq, hc, hdepth]

/-- A semicolon begins no entry. -/
theorem enter_semicolon (l : CodeLine) (k : Cutting) : k.enter l ';' = k := by
  rw [enter]
  split <;> rfl

theorem take_semicolon (hq : k.quote = none) :
    k.take l ';' = .ok (if k.depth = 0 then k.close else k.keep l ';' none k.depth) := by
  have hc : isQuote ';' = false := rfl
  -- a semicolon ends an entry outside of braces only
  by_cases hdepth : k.depth = 0
  · simp [take, enter_semicolon, hq, hc, hdepth]
  · simp [take, keep, enter_semicolon, hq, hc, hdepth]

theorem take_ordinary (hq : k.quote = none) (hc : IsOrdinary c) :
    k.take l c = .ok (k.keep l c none k.depth) := by
  simp [take, keep, hq, hc.notQuote, hc.notOpen, hc.notClose, hc.notEnd]

/-- **What a character does**: it is kept, it ends an entry, or it is refused. -/
theorem take_cases (l : CodeLine) (k : Cutting) (c : Char) :
    (∃ quote depth, k.take l c = .ok (k.keep l c quote depth)) ∨
      (c = ';' ∧ k.take l c = .ok k.close) ∨
      k.take l c = .error .tooDeep ∨ k.take l c = .error .strayBrace := by
  cases hq : k.quote with
  | some q => exact .inl ⟨_, _, take_quoted hq⟩
  | none =>
    by_cases hquote : isQuote c = true
    · exact .inl ⟨_, _, take_quote hq hquote⟩
    by_cases hopen : c = '\x7b'
    · subst hopen
      rw [take_open hq]
      split
      · exact .inl ⟨_, _, rfl⟩
      · exact .inr (.inr (.inl rfl))
    by_cases hclose : c = '\x7d'
    · subst hclose
      rw [take_close hq]
      split
      · exact .inr (.inr (.inr rfl))
      · exact .inl ⟨_, _, rfl⟩
    by_cases hend : c = ';'
    · subst hend
      rw [take_semicolon hq]
      split
      · exact .inr (.inl ⟨rfl, rfl⟩)
      · exact .inl ⟨_, _, rfl⟩
    · exact .inl ⟨_, _, take_ordinary hq ⟨by simpa using hquote, hopen, hclose, hend⟩⟩

/-- A line of code is refused for one of its braces. -/
theorem foldlM_take_eq_error {l : CodeLine} {k : Cutting} {cs : List Char} {flaw : Flaw}
    (h : cs.foldlM (take l) k = .error flaw) : flaw = .tooDeep ∨ flaw = .strayBrace := by
  induction cs generalizing k with
  | nil => simp [pure, Except.pure] at h
  | cons c cs ih =>
    rw [List.foldlM_cons] at h
    cases htake : k.take l c with
    | ok k' => exact ih (by simpa [htake, bind, Except.bind] using h)
    | error flaw' =>
      obtain rfl : flaw' = flaw := by simpa [htake, bind, Except.bind] using h
      rcases take_cases l k c with ⟨quote, depth, hkeep⟩ | ⟨-, hclose⟩ | hdeep | hstray
      · simp [hkeep] at htake
      · simp [hclose] at htake
      · exact .inl (Except.error.inj (htake.symm.trans hdeep))
      · exact .inr (Except.error.inj (htake.symm.trans hstray))

/-- Two cuttings at the same quote and depth do the same with a character. -/
theorem take_congr {β : Type} {l' : CodeLine} {k' : Cutting} {f g : Cutting → β}
    (hquote : k'.quote = k.quote) (hdepth : k'.depth = k.depth)
    (hkeep : ∀ quote depth, f (k'.keep l' c quote depth) = g (k.keep l c quote depth))
    (hclose : f k'.close = g k.close) :
    (k'.take l' c).map f = (k.take l c).map g := by
  -- one branch for each kind of character; most of them keep it
  have hkept : ∀ (quote : Option Char) (depth : Nat),
      Except.map f (.ok (k'.keep l' c quote depth) : Except Flaw Cutting) =
        Except.map g (.ok (k.keep l c quote depth)) :=
    fun quote depth => congrArg Except.ok (hkeep quote depth)
  cases hq : k.quote with
  | some q => rw [take_quoted hq, take_quoted (hquote.trans hq), hdepth, hkept]
  | none =>
    have hq' : k'.quote = none := hquote.trans hq
    by_cases hmark : isQuote c = true
    · rw [take_quote hq hmark, take_quote hq' hmark, hdepth, hkept]
    by_cases hopen : c = '\x7b'
    · subst hopen
      rw [take_open hq, take_open hq', hdepth]
      split
      · exact hkept none 1
      · rfl
    by_cases hend : c = '\x7d'
    · subst hend
      rw [take_close hq, take_close hq', hdepth]
      split
      · rfl
      · exact hkept none (k.depth - 1)
    by_cases hsemi : c = ';'
    · subst hsemi
      rw [take_semicolon hq, take_semicolon hq', hdepth]
      split
      · exact congrArg Except.ok hclose
      · exact hkept none k.depth
    have hordinary : IsOrdinary c := ⟨by simpa using hmark, hopen, hend, hsemi⟩
    rw [take_ordinary hq hordinary, take_ordinary hq' hordinary, hdepth, hkept]

end Take

end Cutting

/-! ## Tidy entries -/

/-- Stretches without the blanks around them and without the empty ones. -/
def tidyParts (parts : List (List Char)) : List (List Char) :=
  (parts.map trim).filter (· ≠ [])

theorem tidyParts_append (a b : List (List Char)) :
    tidyParts (a ++ b) = tidyParts a ++ tidyParts b := by
  rw [tidyParts, List.map_append, List.filter_append, tidyParts, tidyParts]

theorem tidyParts_cons {p : List Char} (h : trim p ≠ []) (parts : List (List Char)) :
    tidyParts (p :: parts) = trim p :: tidyParts parts := by
  rw [tidyParts, List.map_cons, List.filter_cons_of_pos (by simpa using h), tidyParts]

/-- Parts that are the same without the blanks around them. -/
theorem tidyParts_concat (parts : List (List Char)) {p q : List Char} (h : trim p = trim q) :
    tidyParts (parts ++ [p]) = tidyParts (parts ++ [q]) := by
  rw [tidyParts, List.map_append, List.map_singleton, h, tidyParts, List.map_append,
    List.map_singleton]

theorem mem_tidyParts {part : List Char} {parts : List (List Char)} (h : part ∈ tidyParts parts) :
    trim part = part ∧ part ≠ [] := by
  obtain ⟨hpart, hne⟩ := List.mem_filter.mp h
  obtain ⟨raw, -, rfl⟩ := List.mem_map.mp hpart
  exact ⟨trimWhere_trimWhere isBlank raw, of_decide_eq_true hne⟩

theorem tidyParts_eq_self {parts : List (List Char)}
    (h : ∀ part ∈ parts, trim part = part ∧ part ≠ []) : tidyParts parts = parts := by
  -- trimming changes none of them, and none is taken out
  have hmap : parts.map trim = parts := by
    conv_rhs => rw [← List.map_id parts]
    exact List.map_congr_left fun part hpart => (h part hpart).1
  rw [tidyParts, hmap, List.filter_eq_self]
  exact fun part hpart => decide_eq_true (h part hpart).2

theorem tidyParts_tidyParts (parts : List (List Char)) :
    tidyParts (tidyParts parts) = tidyParts parts :=
  tidyParts_eq_self fun _ h => mem_tidyParts h

/-- The entry with tidy stretches. -/
def Entry.tidy (e : Entry) : Entry :=
  { e with parts := tidyParts e.parts }

theorem Entry.text_tidy (e : Entry) : e.tidy.text = e.text := by
  show [' '].intercalate (tidyParts (tidyParts e.parts)) = [' '].intercalate (tidyParts e.parts)
  rw [tidyParts_tidyParts]

/-- Entries that are the same when tidied make the same fields. -/
theorem fieldsOf_tidy (source : String) (earlier : List (String × Nat)) (es : List Entry) :
    fieldsOf source earlier (es.map Entry.tidy) = fieldsOf source earlier es := by
  -- a field is made from the text of its entry, which is the same
  induction es generalizing earlier with
  | nil => rfl
  | cons e es ih =>
    rw [List.map_cons, fieldsOf, fieldsOf, Entry.text_tidy]
    simp only [ih]
    rfl

/-! ## Tidy cuttings -/

namespace Cutting

/-- The cutting with tidy entries, and without the blanks that its stretch starts
with. -/
def tidy (k : Cutting) : Cutting :=
  { k with
    entries := k.entries.map Entry.tidy
    current := k.current.map Entry.tidy
    stretch := dropEndWhile isBlank k.stretch }

theorem tidy_tidy (k : Cutting) : k.tidy.tidy = k.tidy := by
  have hentry : Entry.tidy ∘ Entry.tidy = Entry.tidy := by
    funext e
    exact congrArg (fun parts => { e with parts }) (tidyParts_tidyParts e.parts)
  simp only [tidy, List.map_map, Option.map_map, hentry, dropEndWhile_dropEndWhile]

theorem extend_tidy (e : Entry) (stretch : List Char) :
    (e.tidy.extend (dropEndWhile isBlank stretch)).tidy = (e.extend stretch).tidy := by
  have htrim : trim (dropEndWhile isBlank stretch).reverse = trim stretch.reverse :=
    trimWhere_reverse_dropEndWhile isBlank stretch
  simp only [Entry.tidy, Entry.extend, tidyParts_concat _ htrim]
  simp only [tidyParts_append, tidyParts_tidyParts]

theorem enter_tidy (l : CodeLine) (k : Cutting) (c : Char) :
    k.tidy.enter l c = (k.enter l c).tidy := by
  -- an entry begins at the same character, with no stretches yet
  cases hcurrent : k.current with
  | some e => simp only [enter, tidy, hcurrent, Option.map_some]
  | none =>
    simp only [enter, tidy, hcurrent, Option.map_none]
    split
    · simp only [hcurrent, Option.map_none]
    · rfl

theorem tidy_keep (l : CodeLine) (k : Cutting) (c : Char) (quote : Option Char) (depth : Nat) :
    (k.tidy.keep l c quote depth).tidy = (k.keep l c quote depth).tidy := by
  -- the new character comes last, and the blanks before it are dropped in any case
  have hagain := (k.enter l c).tidy_tidy
  simp only [tidy, Cutting.mk.injEq] at hagain
  simp only [keep, enter_tidy]
  simp only [tidy, hagain, dropEndWhile_cons]

theorem close_tidy (k : Cutting) : k.tidy.close.tidy = k.close.tidy := by
  have hagain := k.tidy_tidy
  simp only [tidy, Cutting.mk.injEq] at hagain
  cases hcurrent : k.current with
  | none => simp [tidy, close, hcurrent, hagain]
  | some e => simp [tidy, close, hcurrent, hagain, extend_tidy]

theorem endLine_tidy (k : Cutting) : k.tidy.endLine.tidy = k.endLine.tidy := by
  have hagain := k.tidy_tidy
  simp only [tidy, Cutting.mk.injEq] at hagain
  cases hcurrent : k.current with
  | none => simp [tidy, endLine, hcurrent, hagain]
  | some e =>
    by_cases hdepth : k.depth = 0
    · simp [tidy, endLine, hcurrent, hagain, hdepth, extend_tidy]
    · simp [tidy, endLine, hcurrent, hagain, hdepth, extend_tidy]

/-- **One character** is taken in the same way. -/
theorem take_tidy (l : CodeLine) (k : Cutting) (c : Char) :
    (k.tidy.take l c).map tidy = (k.take l c).map tidy :=
  take_congr rfl rfl (tidy_keep l k c) (close_tidy k)

/-! ## Lines of code -/

/-- Takes in characters of one line. -/
def takeAll (source : String) (l : CodeLine) (k : Cutting) (cs : List Char) :
    Except ParseError Cutting :=
  match cs.foldlM (take l) k with
  | .error flaw => .error ⟨flaw, source, some l.number, some (String.ofList l.line)⟩
  | .ok k => .ok k

theorem takeLine_eq (source : String) (k : Cutting) (l : CodeLine) :
    k.takeLine source l = (k.takeAll source l l.code).map endLine := by
  rw [takeLine, takeAll]
  cases l.code.foldlM (take l) k <;> rfl

section TakeAll

variable {source : String} {l : CodeLine} {k k' : Cutting} {cs : List Char}

theorem takeAll_append (source : String) (l : CodeLine) (k : Cutting) (a b : List Char) :
    k.takeAll source l (a ++ b) = (k.takeAll source l a).bind fun k => k.takeAll source l b := by
  rw [takeAll, List.foldlM_append, takeAll]
  cases a.foldlM (take l) k <;> rfl

theorem takeAll_cons (source : String) (l : CodeLine) (k : Cutting) (c : Char) (cs : List Char) :
    k.takeAll source l (c :: cs) =
      (k.takeAll source l [c]).bind fun k => k.takeAll source l cs :=
  takeAll_append source l k [c] cs

theorem takeAll_cons_of_ok {c : Char} (h : k.take l c = .ok k') :
    k.takeAll source l (c :: cs) = k'.takeAll source l cs := by
  rw [takeAll, List.foldlM_cons, h]
  rfl

/-- Two results that are the same when tidied. -/
theorem eq_or_of_map_eq {α β ε : Type} {f : α → β} {x y : Except ε α} (h : x.map f = y.map f) :
    (∃ e, x = .error e ∧ y = .error e) ∨ ∃ a b, x = .ok a ∧ y = .ok b ∧ f a = f b := by
  -- an error and a result are never the same
  cases x with
  | error e =>
    cases y with
    | error e' => exact .inl ⟨e, rfl, by rw [Except.error.inj h]⟩
    | ok b => simp [Except.map] at h
  | ok a =>
    cases y with
    | error e' => simp [Except.map] at h
    | ok b => exact .inr ⟨a, b, rfl, rfl, Except.ok.inj h⟩

/-- **Cuttings that are the same when tidied** take in the same characters in the
same way. -/
theorem takeAll_tidy (source : String) (l : CodeLine) (cs : List Char) (h : k.tidy = k'.tidy) :
    (k.takeAll source l cs).map tidy = (k'.takeAll source l cs).map tidy := by
  -- on the characters; both cuttings fail at the same one, or stay the same when tidied
  induction cs generalizing k k' with
  | nil => exact congrArg Except.ok h
  | cons c cs ih =>
    have hone : (k.take l c).map tidy = (k'.take l c).map tidy := by
      rw [← take_tidy, h, take_tidy]
    rcases eq_or_of_map_eq hone with ⟨flaw, hk, hk'⟩ | ⟨k₁, k₁', hk, hk', hsame⟩
    · simp [takeAll, hk, hk']
    · rw [takeAll_cons_of_ok hk, takeAll_cons_of_ok hk']
      exact ih hsame

/-- A blank only makes the stretch longer. -/
theorem take_blank {c : Char} (hc : isBlank c = true) :
    ∃ quote, k.take l c = .ok { k with stretch := c :: k.stretch, quote } ∧
      (k.quote = none → quote = none) := by
  -- no entry begins at a blank
  have henter : k.enter l c = k := by
    rw [enter]
    split
    · rfl
    · simp [hc]
  cases hq : k.quote with
  | some q =>
    refine ⟨if c = q then none else some q, ?_, by simp⟩
    rw [take_quoted hq, keep, henter]
  | none =>
    refine ⟨none, ?_, by simp⟩
    rw [take_ordinary hq (.of_isBlank hc), keep, henter]

theorem takeAll_blanks (source : String) (l : CodeLine) (k : Cutting)
    (hcs : ∀ c ∈ cs, isBlank c = true) :
    ∃ quote, k.takeAll source l cs =
        .ok { k with stretch := cs.reverse ++ k.stretch, quote } ∧
      (k.quote = none → quote = none) := by
  induction cs generalizing k with
  | nil => exact ⟨k.quote, rfl, id⟩
  | cons c cs ih =>
    obtain ⟨quote, htake, hquote⟩ := take_blank (l := l) (k := k) (hcs c (by simp))
    obtain ⟨quote', hall, hquote'⟩ := ih { k with stretch := c :: k.stretch, quote }
      fun d hd => hcs d (by simp [hd])
    refine ⟨quote', ?_, fun hk => hquote' (hquote hk)⟩
    rw [takeAll_cons_of_ok htake, hall]
    simp

/-- Between two lines: an entry is only open inside braces. -/
structure BetweenLines (k : Cutting) : Prop where
  stretch : k.stretch = []
  quote : k.quote = none
  inside : k.current ≠ none → k.depth ≠ 0

theorem betweenLines_start : start.BetweenLines :=
  ⟨rfl, rfl, by simp [start]⟩

theorem betweenLines_endLine (k : Cutting) : k.endLine.BetweenLines := by
  rw [endLine]
  split
  · rename_i hcurrent
    exact ⟨rfl, rfl, by simp [hcurrent]⟩
  · split
    · exact ⟨rfl, rfl, by simp⟩
    · rename_i hdepth
      exact ⟨rfl, rfl, fun _ => hdepth⟩

/-- A line without code ends without a trace. -/
theorem BetweenLines.tidy_endLine (hk : k.BetweenLines) : k.endLine.tidy = k.tidy := by
  obtain ⟨hstretch, hquote, hinside⟩ := hk
  cases hcurrent : k.current with
  | none => simp [tidy, endLine, hcurrent, hstretch, hquote]
  | some e =>
    -- the stretch of such a line is empty, and an empty stretch is not tidy
    have hempty : (e.extend []).tidy = e.tidy := by
      simp [Entry.tidy, Entry.extend, tidyParts, trim, trimWhere, dropEndWhile]
    have hdepth : k.depth ≠ 0 := hinside (by simp [hcurrent])
    simp [tidy, endLine, hcurrent, hstretch, hquote, hdepth, hempty]

/-- Blanks at the end of a line make no difference once it has ended. -/
theorem endLine_blanks (k : Cutting) {back : List Char} (hback : ∀ c ∈ back, isBlank c = true)
    (quote : Option Char) :
    ({ k with stretch := back.reverse ++ k.stretch, quote } : Cutting).endLine.tidy =
      k.endLine.tidy := by
  -- the blanks are at the end of the last stretch
  have hextend : ∀ e : Entry,
      (e.extend (back.reverse ++ k.stretch)).tidy = (e.extend k.stretch).tidy := by
    intro e
    have htrim : trim (back.reverse ++ k.stretch).reverse = trim k.stretch.reverse := by
      rw [List.reverse_append, List.reverse_reverse]
      exact trimWhere_append_right hback _
    simp only [Entry.tidy, Entry.extend, tidyParts_concat _ htrim]
  cases hcurrent : k.current with
  | none => simp only [endLine, hcurrent]
  | some e =>
    by_cases hdepth : k.depth = 0
    · simp [tidy, endLine, hcurrent, hdepth, hextend]
    · simp [tidy, endLine, hcurrent, hdepth, hextend]

/-- **A line of code may stand between blanks.** -/
theorem takeAll_padded {front code back : List Char} (hk : k.BetweenLines)
    (hfront : ∀ c ∈ front, isBlank c = true) (hback : ∀ c ∈ back, isBlank c = true) :
    ((k.takeAll source l (front ++ code ++ back)).map endLine).map tidy =
      ((k.takeAll source l code).map endLine).map tidy := by
  obtain ⟨quote, hbefore, hquote⟩ := takeAll_blanks source l k hfront
  obtain rfl := hquote hk.quote
  -- the blanks in front are no part of an entry yet
  have hsame : ({ k with stretch := front.reverse ++ k.stretch, quote := none } : Cutting).tidy =
      k.tidy := by
    have hblank : dropEndWhile isBlank front.reverse = [] := by
      rw [dropEndWhile, List.reverse_reverse, List.dropWhile_eq_nil_iff.mpr hfront,
        List.reverse_nil]
    obtain ⟨hstretch, hnone, -⟩ := hk
    simp only [tidy, hstretch, hnone, List.append_nil, hblank]
    rfl
  rw [List.append_assoc, takeAll_append, hbefore, Except.bind, takeAll_append]
  -- the code is cut the same way in both, and then the line ends
  rcases eq_or_of_map_eq (takeAll_tidy source l code hsame) with
    ⟨e, hpadded, hplain⟩ | ⟨k₁, k₂, hpadded, hplain, htidy⟩
  · rw [hpadded, hplain]
    rfl
  · obtain ⟨quote', hafter, -⟩ := takeAll_blanks source l k₁ hback
    rw [hpadded, hplain]
    simp only [Except.bind, hafter, Except.map]
    rw [endLine_blanks k₁ hback, ← endLine_tidy, htidy, endLine_tidy]

end TakeAll

end Cutting

end Stencil.Payload
