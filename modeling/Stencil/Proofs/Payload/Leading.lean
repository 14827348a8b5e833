import Stencil.Proofs.Payload.Head
import Stencil.Proofs.Payload.Sweep

/-!
# Stencil — text before a declaration

What stands before a declaration is passed over: it moves the lines of the
declaration down and changes nothing else. The head of a declaration is looked
for in the whole text, though, and in comments too. So this holds of a text in
which no head starts, and of leading comments if none of them holds the start of
a head.

Main results:

* `parse_append` — any text before a declaration;
* `parse_leading` — blanks and comments before a declaration.
-/

namespace Stencil

open Stencil.Payload

/-! ## Line numbers that are moved -/

section Shift

variable (n : Nat)

/-- The flaw with every line `n` lines further down. -/
def Payload.Flaw.shift : Flaw → Flaw
  | .repeated name firstLine => .repeated name (firstLine + n)
  | flaw => flaw

/-- The failure with every line `n` lines further down. -/
def Payload.ParseError.shift (e : ParseError) : ParseError :=
  { e with flaw := e.flaw.shift n, lineNumber := e.lineNumber.map (· + n) }

/-- The field `n` lines further down. -/
def Payload.Field.shift (f : Field) : Field :=
  { f with line := f.line.map (· + (n : Int)) }

/-- The payload `n` lines further down. -/
def Payload.shift (p : Payload) : Payload :=
  { p with fields := p.fields.map (·.shift n) }

def Payload.CodeLine.shift (l : CodeLine) : CodeLine :=
  { l with number := l.number + n }

def Payload.Entry.shift (e : Entry) : Entry :=
  { e with number := e.number + n }

def Payload.Cutting.shift (k : Cutting) : Cutting :=
  { k with entries := k.entries.map (·.shift n), current := k.current.map (·.shift n) }

end Shift

namespace Payload

open Stencil.Text Cutting

/-- The outcome with every line `n` lines further down, where `f` moves a
result. -/
def shiftOutcome {α : Type} (n : Nat) (f : α → α) (x : Except ParseError α) :
    Except ParseError α :=
  (x.mapError (·.shift n)).map f

section Moved

variable {α β : Type} {n : Nat} {source : String}

theorem shiftOutcome_bind {f : α → α} {g : β → β} {x : Except ParseError α}
    {next next' : α → Except ParseError β} (h : ∀ a, next' (f a) = shiftOutcome n g (next a)) :
    (shiftOutcome n f x).bind next' = shiftOutcome n g (x.bind next) := by
  cases x with
  | error e => rfl
  | ok a => exact h a

theorem shiftOutcome_map {f : α → α} {g : β → β} {x : Except ParseError α} {h h' : α → β}
    (hmap : ∀ a, h' (f a) = g (h a)) :
    (shiftOutcome n f x).map h' = shiftOutcome n g (x.map h) := by
  cases x with
  | error e => rfl
  | ok a => exact congrArg Except.ok (hmap a)

/-! ### Lines and entries -/

theorem codeLinesFrom_shift (number : Nat) (inComment : Bool) (raws : List (List Char)) :
    codeLinesFrom (number + n) inComment raws =
      (codeLinesFrom number inComment raws).map (·.shift n) := by
  induction raws generalizing number inComment with
  | nil => rfl
  | cons raw raws ih =>
    simp only [codeLinesFrom]
    rw [show number + n + 1 = number + 1 + n by omega, ih]
    split
    · rfl
    · rfl

variable (l : CodeLine) (k : Cutting)

theorem extend_shift (e : Entry) (stretch : List Char) :
    (e.shift n).extend stretch = (e.extend stretch).shift n :=
  rfl

theorem enter_shift (c : Char) : (k.shift n).enter (l.shift n) c = (k.enter l c).shift n := by
  rw [enter, enter]
  cases hcurrent : k.current with
  | some e => simp only [Cutting.shift, hcurrent, Option.map_some]
  | none =>
    simp only [Cutting.shift, hcurrent, Option.map_none]
    split
    · simp only [hcurrent, Option.map_none]
    · rfl

theorem close_shift : (k.shift n).close = k.close.shift n := by
  cases hcurrent : k.current with
  | none => simp [close, Cutting.shift, hcurrent]
  | some e => simp [close, Cutting.shift, hcurrent, extend_shift]

theorem endLine_shift : (k.shift n).endLine = k.endLine.shift n := by
  cases hcurrent : k.current with
  | none => simp [endLine, Cutting.shift, hcurrent]
  | some e =>
    by_cases hdepth : k.depth = 0
    · simp [endLine, Cutting.shift, hcurrent, hdepth, extend_shift]
    · simp [endLine, Cutting.shift, hcurrent, hdepth, extend_shift]

theorem keep_shift (c : Char) (quote : Option Char) (depth : Nat) :
    (k.shift n).keep (l.shift n) c quote depth = (k.keep l c quote depth).shift n := by
  rw [keep, enter_shift]
  rfl

/-- **One character** is taken in whatever the number of its line. -/
theorem take_shift (c : Char) : (k.shift n).take (l.shift n) c = (k.take l c).map (·.shift n) := by
  -- what it does is told by the quote and the depth, which stay
  have hcongr : ((k.shift n).take (l.shift n) c).map id = (k.take l c).map (·.shift n) :=
    take_congr rfl rfl (keep_shift l k c) (close_shift k)
  rw [← hcongr]
  cases (k.shift n).take (l.shift n) c <;> rfl

/-- The characters of a line. -/
theorem foldlM_take_shift (cs : List Char) :
    cs.foldlM (take (l.shift n)) (k.shift n) = (cs.foldlM (take l) k).map (·.shift n) := by
  induction cs generalizing k with
  | nil => rfl
  | cons c cs ih =>
    rw [List.foldlM_cons, List.foldlM_cons, take_shift]
    cases k.take l c with
    | error flaw => rfl
    | ok k' => exact ih k'

/-- A flaw that is found in a line names no other line: only a repeated name does,
which is found later. -/
theorem flaw_shift {flaw : Flaw} {cs : List Char} (h : cs.foldlM (take l) k = .error flaw) :
    flaw.shift n = flaw := by
  rcases foldlM_take_eq_error h with rfl | rfl <;> rfl

theorem takeLine_shift :
    (k.shift n).takeLine source (l.shift n) =
      shiftOutcome n (·.shift n) (k.takeLine source l) := by
  rw [takeLine, takeLine, show (l.shift n).code = l.code from rfl, foldlM_take_shift]
  cases hall : l.code.foldlM (take l) k with
  | error flaw =>
    simp only [Except.map, shiftOutcome, Except.mapError, ParseError.shift, flaw_shift l k hall]
    rfl
  | ok k' => exact congrArg Except.ok (endLine_shift k')

theorem foldlM_takeLine_shift (ls : List CodeLine) :
    (ls.map (·.shift n)).foldlM (takeLine source) (k.shift n) =
      shiftOutcome n (·.shift n) (ls.foldlM (takeLine source) k) := by
  induction ls generalizing k with
  | nil => rfl
  | cons l ls ih =>
    rw [List.map_cons, List.foldlM_cons, List.foldlM_cons, takeLine_shift]
    exact shiftOutcome_bind ih

/-- **The entries** of lines that are moved down. -/
theorem entries_shift (ls : List CodeLine) :
    entries source (ls.map (·.shift n)) =
      shiftOutcome n (List.map (·.shift n)) (entries source ls) := by
  rw [entries, entries, show Cutting.start = Cutting.start.shift n from rfl,
    foldlM_takeLine_shift]
  refine shiftOutcome_bind fun k => ?_
  cases hcurrent : k.current with
  | none =>
    simp only [Cutting.shift, hcurrent]
    rfl
  | some e =>
    simp only [Cutting.shift, hcurrent]
    rfl

/-! ### Fields -/

theorem firstLine?_shift (name : String) (earlier : List (String × Nat)) :
    firstLine? name (earlier.map fun p => (p.1, p.2 + n)) = (firstLine? name earlier).map (· + n) := by
  rw [firstLine?, firstLine?, List.find?_map, Option.map_map, Option.map_map]
  rfl

/-- **The fields** of entries that are moved down. -/
theorem fieldsOf_shift (earlier : List (String × Nat)) (es : List Entry) :
    fieldsOf source (earlier.map fun p => (p.1, p.2 + n)) (es.map (·.shift n)) =
      shiftOutcome n (List.map (·.shift n)) (fieldsOf source earlier es) := by
  induction es generalizing earlier with
  | nil => rfl
  | cons e es ih =>
    rw [List.map_cons, fieldsOf, fieldsOf, show (e.shift n).text = e.text from rfl]
    cases hparts : splitEntry? e.text with
    | none => rfl
    | some parts =>
      simp only [firstLine?_shift]
      split
      · rfl
      · cases hfirst : firstLine? (String.ofList parts.name) earlier with
        | some line => rfl
        | none =>
          -- the entry is an earlier one for the entries behind it
          have hearlier : earlier.map (fun p => (p.1, p.2 + n)) ++
              [(String.ofList parts.name, (e.shift n).number)] =
              (earlier ++ [(String.ofList parts.name, e.number)]).map fun p => (p.1, p.2 + n) := by
            rw [List.map_append]
            rfl
          simp only [Option.map_none, hearlier, ih]
          exact shiftOutcome_map fun fields => by simp [Field.shift, Entry.shift]

end Moved

/-! ## A text before a declaration -/

/-- Whether the head of a declaration starts in the text, which has `tail` behind
it. -/
def startsHead : (cs tail : List Char) → Bool
  | [], _ => false
  | c :: rest, tail => (dropHead (c :: (rest ++ tail))).isSome || startsHead rest tail

section Before

variable {cs tail : List Char} {n : Nat} {source : String}

theorem startsHead_append (a b tail : List Char) :
    startsHead (a ++ b) tail = (startsHead a (b ++ tail) || startsHead b tail) := by
  induction a with
  | nil => rfl
  | cons c a ih =>
    rw [List.cons_append, startsHead, startsHead, ih, List.append_assoc, Bool.or_assoc]

/-- The first head is the first one behind such a text. -/
theorem afterHead?_append (h : startsHead cs tail = false) :
    afterHead? (cs ++ tail) = afterHead? tail := by
  induction cs with
  | nil => rfl
  | cons c cs ih =>
    rw [startsHead, Bool.or_eq_false_iff, Option.isSome_eq_false_iff, Option.isNone_iff_eq_none] at h
    rw [List.cons_append, afterHead?, h.1]
    exact ih h.2

theorem declaredBody_append (h : startsHead cs tail = false) :
    declaredBody source (cs ++ tail) =
      shiftOutcome (lineFeeds cs) (fun found => (found.1, found.2 + lineFeeds cs))
        (declaredBody source tail) := by
  rw [declaredBody, declaredBody, afterHead?_append h]
  cases hafter : afterHead? tail with
  | none => rfl
  | some rest =>
    -- the head stands in the tail, and so does every line feed before the body
    have hle : lineFeeds rest ≤ lineFeeds tail := (afterHead?_suffix hafter).sublist.count_le '\n'
    have hline : lineFeeds (cs ++ tail) - lineFeeds rest + 1 =
        lineFeeds tail - lineFeeds rest + 1 + lineFeeds cs := by
      have hsum : lineFeeds (cs ++ tail) = lineFeeds cs + lineFeeds tail := List.count_append
      omega
    simp only [hline]
    cases body? rest <;> rfl

/-- **A text before a declaration** moves its lines down, if no head starts in
it. -/
theorem parse_append {lead text : String} (source : String)
    (h : startsHead lead.toList text.toList = false) :
    Payload.parse (lead ++ text) source =
      shiftOutcome (lineFeeds lead.toList) (·.shift (lineFeeds lead.toList))
        (Payload.parse text source) := by
  -- the body, its entries and their fields, each moved by what was moved before
  rw [parse_eq_bind, parse_eq_bind, String.toList_append, declaredBody_append h]
  refine shiftOutcome_bind fun found => ?_
  rw [codeLines, codeLinesFrom_shift, entries_shift]
  refine shiftOutcome_bind fun es => ?_
  rw [show fieldsOf source [] _ = _ from fieldsOf_shift [] es]
  exact shiftOutcome_map fun fields => rfl

end Before

/-! ## Leading comments -/

/-- A text of blanks and comments. `comments` holds the text of each comment and
what stands behind that. -/
inductive IsLeading : (comments : List (List Char × List Char)) → List Char → Prop
  | nil : IsLeading [] []
  | blank {comments : List (List Char × List Char)} {c : Char} {rest : List Char} :
      isBlank c = true → IsLeading comments rest → IsLeading comments (c :: rest)
  | lineComment {comments : List (List Char × List Char)} {text rest : List Char} :
      '\n' ∉ text → IsLeading comments rest →
      IsLeading ((text, '\n' :: rest) :: comments) ('/' :: '/' :: (text ++ '\n' :: rest))
  | blockComment {comments : List (List Char × List Char)} {text rest : List Char} :
      ¬ ['*', '/'] <:+: text → IsLeading comments rest →
      IsLeading ((text, '*' :: '/' :: rest) :: comments)
        ('/' :: '*' :: (text ++ '*' :: '/' :: rest))

/-- A head starts with a letter. -/
theorem startsHead_cons {c : Char} (hc : c ≠ 'e') (cs tail : List Char) :
    startsHead (c :: cs) tail = startsHead cs tail := by
  have hword : dropWord "export" (c :: (cs ++ tail)) = none := by
    rw [dropWord, if_neg]
    simp [hc.symm]
  rw [startsHead, dropHead, hword]
  rfl

/-- In blanks and comments a head starts in the text of a comment. -/
theorem startsHead_leading {comments : List (List Char × List Char)} {lead tail : List Char}
    (h : IsLeading comments lead)
    (hcomments : ∀ p ∈ comments, startsHead p.1 (p.2 ++ tail) = false) :
    startsHead lead tail = false := by
  induction h with
  | nil => rfl
  | blank hblank _ ih =>
    rw [startsHead_cons (ne_of_isBlank hblank (by decide))]
    exact ih hcomments
  | lineComment _ _ ih =>
    rw [List.forall_mem_cons] at hcomments
    rw [startsHead_cons (by decide), startsHead_cons (by decide), startsHead_append,
      hcomments.1, startsHead_cons (by decide), Bool.false_or]
    exact ih hcomments.2
  | blockComment _ _ ih =>
    rw [List.forall_mem_cons] at hcomments
    rw [startsHead_cons (by decide), startsHead_cons (by decide), startsHead_append,
      hcomments.1, startsHead_cons (by decide), startsHead_cons (by decide), Bool.false_or]
    exact ih hcomments.2

/-- **Leading comments are passed over**, if no head of a declaration starts in
one of them: the same fields are read, or the same flaw is found, as many lines
further down as stand before the text. -/
theorem parse_leading {comments : List (List Char × List Char)} {lead text : String}
    (source : String) (h : IsLeading comments lead.toList)
    (hcomments : ∀ p ∈ comments, startsHead p.1 (p.2 ++ text.toList) = false) :
    Payload.parse (lead ++ text) source =
      ((Payload.parse text source).mapError (·.shift (lineFeeds lead.toList))).map
        (·.shift (lineFeeds lead.toList)) :=
  parse_append source (startsHead_leading h hcomments)

/-- The block comment names the type, but does not declare it. -/
theorem parse_leading_two :
    Payload.parse ("// list\n\n/* export type\n typePayload */\n" ++
        "export type typePayload = \x7bid?: string\x7d") "t" =
      .ok ⟨[⟨"id", true, "string", some 5⟩], "t"⟩ := by
  have hblock : ¬ ['*', '/'] <:+: " export type\n typePayload ".toList :=
    fun h => absurd (h.subset (by simp : '/' ∈ ['*', '/'])) (by decide)
  have hlead : IsLeading _ ('/' :: '/' :: (" list".toList ++ '\n' :: '\n' :: '/' :: '*' ::
      (" export type\n typePayload ".toList ++ '*' :: '/' :: ['\n']))) :=
    .lineComment (by decide) (.blank rfl (.blockComment hblock (.blank rfl .nil)))
  have hlead' : IsLeading _ "// list\n\n/* export type\n typePayload */\n".toList := hlead
  have htext : Payload.parse "export type typePayload = \x7bid?: string\x7d" "t" =
      .ok ⟨[⟨"id", true, "string", some 1⟩], "t"⟩ := by rfl
  rw [parse_leading "t" hlead' (by decide), htext]
  rfl

/-- A declaration in a comment is read. -/
example : (Payload.parse ("// export type typePayload = \x7bold: string\x7d\n" ++
    "export type typePayload = \x7bid: string\x7d") "t").map (·.names) = .ok ["old"] := by
  rfl

end Payload

end Stencil
