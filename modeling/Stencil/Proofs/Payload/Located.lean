import Stencil.Proofs.Payload.Characters
import Stencil.Proofs.Payload.Head
import Stencil.Proofs.Payload.Sweep

/-!
# Stencil — the lines that errors and fields name

A body is read line by line, and an entry begins on the line of its first
character. So what is said of a line, its number and its text, is true of a line of
the whole text: the lines of the body are whole lines of it, except that the first
one begins behind the opening brace and the last one ends before the closing brace.

Main results:

* `Declaration.quotes_of_mem` — a line of code is a line of the text;
* `entries_starts` — the lines that entries begin on, in order;
* `fieldsOf_eq_error` — the entry that an error is about;
* `parse_located` — the lines of every error and of every field.
-/

namespace Stencil.Payload

open Stencil.Text

/-! ## Lines of a text -/

/-- A line of a text by its number, counted from one. -/
def lineAt? (text : List Char) : Nat → Option (List Char)
  | 0 => none
  | n + 1 => (pieces '\n' text)[n]?

/-- Where a text declares its payload type: the body between its braces, and what
stands around them. -/
structure Declaration (text : List Char) where
  before : List Char
  body : List Char
  behind : List Char
  isSplit : text = before ++ '\x7b' :: (body ++ '\x7d' :: behind)
  isFirst : afterHead? text = some (body ++ '\x7d' :: behind)
  isClosed : body? (body ++ '\x7d' :: behind) = some body

namespace Declaration

variable {text : List Char}

/-- The number of the line with the opening brace. -/
def firstLine (d : Declaration text) : Nat :=
  lineFeeds d.before + 1

/-- The number of the line with the closing brace. -/
def lastLine (d : Declaration text) : Nat :=
  lineFeeds (d.before ++ '\x7b' :: d.body) + 1

/-- The text quotes a line of the whole text without blanks around it. Next to a brace
of the declaration it may be a part of the line. -/
structure Quotes (d : Declaration text) (number : Nat) (quoted : List Char) : Prop where
  notEmpty : quoted ≠ []
  isTrimmed : trim quoted = quoted
  isWithin : d.firstLine ≤ number ∧ number ≤ d.lastLine
  isPart : ∃ line, lineAt? text number = some line ∧ quoted <:+: line ∧
    (number ≠ d.firstLine → number ≠ d.lastLine → quoted = trim line)

theorem lastLine_eq (d : Declaration text) : d.lastLine = d.firstLine + lineFeeds d.body := by
  have hbrace : lineFeeds ('\x7b' :: d.body) = lineFeeds d.body := List.count_cons_of_ne (by decide)
  have hsum : lineFeeds (d.before ++ '\x7b' :: d.body) =
      lineFeeds d.before + lineFeeds ('\x7b' :: d.body) := List.count_append
  rw [lastLine, firstLine, hsum, hbrace]
  omega

end Declaration

/-- The first head of a text ends in a brace. -/
theorem exists_of_afterHead? {cs rest : List Char} (h : afterHead? cs = some rest) :
    ∃ s, cs = s ++ '\x7b' :: rest := by
  induction cs with
  | nil => simp [afterHead?] at h
  | cons c cs ih =>
    rw [afterHead?] at h
    split at h
    · rename_i after hhead
      obtain rfl := Option.some.inj h
      exact exists_of_dropHead hhead
    · obtain ⟨s, rfl⟩ := ih h
      exact ⟨c :: s, rfl⟩

/-- A body that is found belongs to a declaration. -/
theorem exists_declaration {source : String} {text body : List Char} {firstLine : Nat}
    (h : declaredBody source text = .ok (body, firstLine)) :
    ∃ d : Declaration text, d.body = body ∧ d.firstLine = firstLine := by
  obtain ⟨-, before, behind, hsplit, hafter, hline, -⟩ := declaredBody_replace h
  obtain ⟨s, hs⟩ := exists_of_afterHead? hafter
  have hbody : body? (body ++ '\x7d' :: behind) = some body := by
    rw [declaredBody, hafter] at h
    simp only at h
    split at h
    · simp at h
    · rename_i hfound
      obtain ⟨rfl, -⟩ := Prod.mk.inj (Except.ok.inj h)
      exact hfound
  refine ⟨⟨s, body, behind, hs, hafter, hbody⟩, rfl, ?_⟩
  -- what stands before the body ends with the brace
  have hbrace : before = s ++ ['\x7b'] := by
    refine List.append_cancel_right (hsplit.symm.trans ?_)
    rw [hs, List.append_assoc, List.singleton_append]
  have hfeeds : lineFeeds before = lineFeeds s := by
    rw [hbrace, lineFeeds, List.count_append]
    rfl
  rw [hline, hfeeds]
  rfl

/-! ## The lines of a body -/

section Lines

variable {text : List Char} {number : Nat} {inComment : Bool} {raws : List (List Char)}
  {l : CodeLine}

/-- A line of code is one of the lines, without the blanks around it. -/
theorem exists_of_mem_codeLinesFrom (hl : l ∈ codeLinesFrom number inComment raws) :
    ∃ i raw, raws[i]? = some raw ∧ l.number = number + i ∧ l.line = trim raw ∧ l.line ≠ [] := by
  induction raws generalizing number inComment with
  | nil => simp [codeLinesFrom] at hl
  | cons raw raws ih =>
    have hlater : ∀ {isOpen : Bool}, l ∈ codeLinesFrom (number + 1) isOpen raws →
        ∃ i raw', (raw :: raws)[i]? = some raw' ∧ l.number = number + i ∧ l.line = trim raw' ∧
          l.line ≠ [] := by
      intro isOpen hl
      obtain ⟨i, raw', hraw', hnumber, hline⟩ := ih hl
      exact ⟨i + 1, raw', hraw', by omega, hline⟩
    simp only [codeLinesFrom] at hl
    split at hl
    · exact hlater hl
    · rename_i c cs hcode
      rcases List.mem_cons.mp hl with rfl | hl
      · refine ⟨0, raw, rfl, rfl, rfl, fun hempty => ?_⟩
        -- there is no code on an empty line
        have hmem : c ∈ trim (codeOf inComment (trim raw)).1 := hcode ▸ List.mem_cons_self
        have hline := (codeOf_sublist inComment (trim raw)).subset (mem_of_mem_trim hmem)
        exact List.ne_nil_of_mem hline hempty
      · exact hlater hl

/-- Lines of code come in the order of their numbers. -/
theorem codeLinesFrom_pairwise (number : Nat) (inComment : Bool) (raws : List (List Char)) :
    (codeLinesFrom number inComment raws).Pairwise (·.number < ·.number) := by
  induction raws generalizing number inComment with
  | nil => exact .nil
  | cons raw raws ih =>
    simp only [codeLinesFrom]
    split
    · exact ih _ _
    · refine List.pairwise_cons.mpr ⟨fun l hl => ?_, ih _ _⟩
      obtain ⟨i, raw', -, hnumber, -⟩ := exists_of_mem_codeLinesFrom hl
      show number < l.number
      omega

/-- **A line of code** is a line of the text. -/
theorem Declaration.quotes_of_mem (d : Declaration text)
    (hl : l ∈ codeLines d.body d.firstLine) : d.Quotes l.number l.line := by
  obtain ⟨i, raw, hraw, hnumber, hline, hne⟩ := exists_of_mem_codeLinesFrom hl
  -- behind the body stands the closing brace, and before it the opening one
  obtain ⟨q, hq, hlast⟩ := getElem?_pieces_append_right hraw ('\x7d' :: d.behind)
  obtain ⟨r, hr, hfirst⟩ := getElem?_pieces_append_left hq (d.before ++ ['\x7b'])
  have hfeeds : (d.before ++ ['\x7b']).count '\n' = lineFeeds d.before := by
    rw [List.count_append]
    rfl
  have htext : d.before ++ ['\x7b'] ++ (d.body ++ '\x7d' :: d.behind) = text := by
    rw [List.append_assoc, List.singleton_append]
    exact d.isSplit.symm
  have hat : lineAt? text l.number = some (r ++ (raw ++ q)) := by
    rw [hnumber, firstLine, show lineFeeds d.before + 1 + i = lineFeeds d.before + i + 1 by omega,
      lineAt?, ← hr, hfeeds, htext]
  have hle : i ≤ lineFeeds d.body := by
    have hlength := (List.getElem?_eq_some_iff.mp hraw).1
    rw [length_pieces] at hlength
    exact Nat.lt_succ_iff.mp hlength
  obtain ⟨front, back, htrim, -, -⟩ := exists_trim raw
  refine ⟨hne, ?_, ⟨by omega, by rw [lastLine_eq]; omega⟩, _, hat, ?_, fun hfront hback => ?_⟩
  · rw [hline]
    exact trimWhere_trimWhere isBlank raw
  · rw [hline]
    refine ⟨r ++ front, back ++ q, ?_⟩
    calc r ++ front ++ trim raw ++ (back ++ q)
        = r ++ (front ++ (trim raw ++ back) ++ q) := by simp only [List.append_assoc]
      _ = r ++ (raw ++ q) := by rw [← htrim]
  · -- between the braces' lines nothing else stands on the line
    rw [lastLine_eq] at hback
    rw [hline, hfirst (by omega), hlast (by rw [← lineFeeds]; omega), List.append_nil,
      List.nil_append]

end Lines

/-! ## Where entries begin -/

/-- The number and the text of the line that an entry begins on. -/
def Entry.start (e : Entry) : Nat × List Char :=
  (e.number, e.line)

def CodeLine.start (l : CodeLine) : Nat × List Char :=
  (l.number, l.line)

/-- Where the entries so far begin, the one being read included. -/
def Cutting.starts (k : Cutting) : List (Nat × List Char) :=
  k.entries.map Entry.start ++ (k.current.map Entry.start).toList

/-- Where entries can begin: at any character of the code. -/
def lineStarts (ls : List CodeLine) : List (Nat × List Char) :=
  ls.flatMap fun l => l.code.map fun _ => l.start

section Starts

open Cutting

variable {l : CodeLine} {ls : List CodeLine} {k k' : Cutting} {source : String} {es : List Entry}
  {err : ParseError}

/-- A character begins one entry at most. -/
theorem starts_enter (l : CodeLine) (k : Cutting) (c : Char) :
    ∃ more, (k.enter l c).starts = k.starts ++ more ∧ more.Sublist [l.start] := by
  rw [enter]
  split
  · exact ⟨[], by simp, List.nil_sublist _⟩
  · rename_i hnone
    split
    · exact ⟨[], by simp, List.nil_sublist _⟩
    · exact ⟨[l.start], by simp [starts, hnone, Entry.start, CodeLine.start], .refl _⟩

/-- The end of an entry is the end of one that has begun. -/
theorem starts_close (k : Cutting) : k.close.starts = k.starts := by
  cases hcurrent : k.current with
  | none => simp [starts, close, hcurrent]
  | some e => simp [starts, close, hcurrent, Entry.extend, Entry.start]

theorem starts_endLine (k : Cutting) : k.endLine.starts = k.starts := by
  cases hcurrent : k.current with
  | none => simp [starts, endLine, hcurrent]
  | some e =>
    by_cases hdepth : k.depth = 0
    · simp [starts, endLine, hcurrent, hdepth, Entry.extend, Entry.start]
    · simp [starts, endLine, hcurrent, hdepth, Entry.extend, Entry.start]

theorem starts_take {c : Char} (h : k.take l c = .ok k') :
    ∃ more, k'.starts = k.starts ++ more ∧ more.Sublist [l.start] := by
  rcases take_cases l k c with ⟨quote, depth, hkeep⟩ | ⟨-, hclose⟩ | hdeep | hstray
  · obtain rfl := Except.ok.inj (hkeep.symm.trans h)
    exact starts_enter l k c
  · obtain rfl := Except.ok.inj (hclose.symm.trans h)
    exact ⟨[], by rw [starts_close, List.append_nil], List.nil_sublist _⟩
  · simp [hdeep] at h
  · simp [hstray] at h

/-- The characters of a line. -/
theorem starts_takeAll {cs : List Char} (h : cs.foldlM (take l) k = .ok k') :
    ∃ more, k'.starts = k.starts ++ more ∧ more.Sublist (cs.map fun _ => l.start) := by
  induction cs generalizing k with
  | nil =>
    obtain rfl := Except.ok.inj h
    exact ⟨[], by simp, List.nil_sublist _⟩
  | cons c cs ih =>
    rw [List.foldlM_cons] at h
    cases htake : k.take l c with
    | error flaw => simp [htake, bind, Except.bind] at h
    | ok k₁ =>
      rw [htake] at h
      obtain ⟨more, hmore, hsub⟩ := starts_take htake
      obtain ⟨others, hothers, hsub'⟩ := ih h
      exact ⟨more ++ others, by rw [hothers, hmore, List.append_assoc], hsub.append hsub'⟩

/-- The lines of a body. -/
theorem starts_takeLines (h : ls.foldlM (takeLine source) k = .ok k') :
    ∃ more, k'.starts = k.starts ++ more ∧ more.Sublist (lineStarts ls) := by
  induction ls generalizing k with
  | nil =>
    obtain rfl := Except.ok.inj h
    exact ⟨[], by simp, List.nil_sublist _⟩
  | cons l ls ih =>
    rw [List.foldlM_cons] at h
    cases hline : takeLine source k l with
    | error e => simp [hline, bind, Except.bind] at h
    | ok k₁ =>
      rw [hline] at h
      obtain ⟨others, hothers, hsub'⟩ := ih h
      rw [takeLine] at hline
      split at hline
      · simp at hline
      · rename_i k₂ hall
        obtain rfl := Except.ok.inj hline
        obtain ⟨more, hmore, hsub⟩ := starts_takeAll hall
        rw [starts_endLine, hmore] at hothers
        exact ⟨more ++ others, by rw [hothers, List.append_assoc], hsub.append hsub'⟩

theorem starts_start : Cutting.start.starts = [] :=
  rfl

/-- **Entries begin in order**, each on a line of code. -/
theorem entries_starts (h : entries source ls = .ok es) :
    (es.map Entry.start).Sublist (lineStarts ls) := by
  simp only [entries] at h
  cases hcut : ls.foldlM (takeLine source) Cutting.start with
  | error e => simp [hcut, bind, Except.bind] at h
  | ok k =>
    obtain ⟨more, hmore, hsub⟩ := starts_takeLines hcut
    simp only [hcut, bind, Except.bind] at h
    split at h
    · rename_i hnone
      obtain rfl := Except.ok.inj h
      rw [starts_start, List.nil_append, starts, hnone, Option.map_none, Option.toList_none,
        List.append_nil] at hmore
      rwa [hmore]
    · simp at h

theorem mem_lineStarts {p : Nat × List Char} (h : p ∈ lineStarts ls) : ∃ l ∈ ls, p = l.start := by
  obtain ⟨l, hl, hp⟩ := List.mem_flatMap.mp h
  obtain ⟨_, -, rfl⟩ := List.mem_map.mp hp
  exact ⟨l, hl, rfl⟩

/-- The numbers of the lines do not go down. -/
theorem lineStarts_pairwise (h : ls.Pairwise (·.number < ·.number)) :
    (lineStarts ls).Pairwise (·.1 ≤ ·.1) := by
  induction ls with
  | nil => exact .nil
  | cons l ls ih =>
    obtain ⟨hfirst, hrest⟩ := List.pairwise_cons.mp h
    rw [lineStarts, List.flatMap_cons]
    refine List.pairwise_append.mpr ⟨?_, ih hrest, fun p hp q hq => ?_⟩
    · exact List.pairwise_map.mpr (List.pairwise_iff_forall_sublist.mpr fun _ => le_rfl)
    · obtain ⟨_, -, rfl⟩ := List.mem_map.mp hp
      obtain ⟨l', hl', rfl⟩ := mem_lineStarts hq
      exact (hfirst l' hl').le

/-- The error names a line, and no name that is repeated. -/
def ParseError.IsAt (err : ParseError) (l : CodeLine) : Prop :=
  err.lineNumber = some l.number ∧ err.line = some (String.ofList l.line) ∧
    ∀ name first, err.flaw ≠ .repeated name first

/-- A flaw of a line is found in that line. -/
theorem takeLine_eq_error (h : k.takeLine source l = .error err) : err.IsAt l := by
  rw [takeLine] at h
  split at h
  · rename_i flaw hall
    obtain rfl := Except.error.inj h
    refine ⟨rfl, rfl, fun name first hflaw => ?_⟩
    rcases foldlM_take_eq_error hall with htooDeep | hstray
    · exact absurd (hflaw.symm.trans htooDeep) (by simp)
    · exact absurd (hflaw.symm.trans hstray) (by simp)
  · simp at h

theorem takeLines_eq_error (h : ls.foldlM (takeLine source) k = .error err) :
    ∃ l ∈ ls, err.IsAt l := by
  induction ls generalizing k with
  | nil => simp [pure, Except.pure] at h
  | cons l ls ih =>
    rw [List.foldlM_cons] at h
    cases hline : takeLine source k l with
    | error e =>
      obtain rfl : e = err := by simpa [hline, bind, Except.bind] using h
      exact ⟨l, List.mem_cons_self, takeLine_eq_error hline⟩
    | ok k₁ =>
      rw [hline] at h
      obtain ⟨l', hl', hat⟩ := ih h
      exact ⟨l', List.mem_cons_of_mem l hl', hat⟩

/-- **A flaw of the code** is found in one of its lines, or in the entry that is never
closed, which begins on one. -/
theorem entries_eq_error (h : entries source ls = .error err) : ∃ l ∈ ls, err.IsAt l := by
  simp only [entries] at h
  cases hcut : ls.foldlM (takeLine source) Cutting.start with
  | error e =>
    obtain rfl : e = err := by simpa [hcut, bind, Except.bind] using h
    exact takeLines_eq_error hcut
  | ok k =>
    obtain ⟨more, hmore, hsub⟩ := starts_takeLines hcut
    simp only [hcut, bind, Except.bind] at h
    split at h
    · simp at h
    · rename_i e hcurrent
      obtain rfl := Except.error.inj h
      have hstart : e.start ∈ more := by
        rw [starts_start, List.nil_append] at hmore
        rw [← hmore, starts, hcurrent]
        simp
      obtain ⟨l, hl, heq⟩ := mem_lineStarts (hsub.subset hstart)
      obtain ⟨hnumber, hline⟩ := Prod.mk.inj heq
      exact ⟨l, hl, congrArg some hnumber, congrArg (some ∘ String.ofList) hline, by simp⟩

end Starts

/-! ## Fields -/

section Fields

variable {source : String} {earlier : List (String × Nat)} {es : List Entry}
  {fields : List Field} {err : ParseError}

/-- The line of a field is the one that its entry begins on. -/
theorem lines_fieldsOf (h : fieldsOf source earlier es = .ok fields) :
    fields.map (·.line) = es.map fun e => some (e.number : Int) := by
  induction es generalizing earlier fields with
  | nil =>
    obtain rfl := Except.ok.inj h
    rfl
  | cons e es ih =>
    obtain ⟨parts, rest, -, -, -, hrest, rfl⟩ := fieldsOf_cons_eq_ok h
    rw [List.map_cons, List.map_cons, ih hrest]

/-- An entry by its name and its line is a name and a line more. -/
theorem firstLine?_concat (name other : String) (number : Nat) :
    firstLine? name (earlier ++ [(other, number)]) =
      (firstLine? name earlier).or (if other = name then some number else none) := by
  rw [firstLine?, firstLine?, List.find?_append]
  cases earlier.find? (·.1 == name) with
  | some p => rfl
  | none =>
    by_cases hname : other = name
    · simp [hname]
    · simp [hname]

/-- The entry is one for a field of that name. -/
def Entry.HasName (e : Entry) (name : String) : Prop :=
  ∃ parts, splitEntry? e.text = some parts ∧ String.ofList parts.name = name

/-- The first of these fields that has the name stands on that line. -/
def IsFirstLine (fields : List Field) (name : String) (first : Nat) : Prop :=
  ∃ f, fields.find? (·.name == name) = some f ∧ f.line = some (first : Int)

/-- The first that has the name stands on that line, among the names so far and the
fields that come after them. -/
def FirstAt (earlier : List (String × Nat)) (fields : List Field) (name : String) (first : Nat) :
    Prop :=
  firstLine? name earlier = some first ∨
    firstLine? name earlier = none ∧ IsFirstLine fields name first

/-- A field with a new name counts among the fields as it counts among the names. -/
theorem FirstAt.cons {f : Field} {name : String} {number first : Nat}
    (hnew : firstLine? f.name earlier = none) (hline : f.line = some (number : Int))
    (h : FirstAt (earlier ++ [(f.name, number)]) fields name first) :
    FirstAt earlier (f :: fields) name first := by
  rw [FirstAt, firstLine?_concat] at h
  by_cases hsame : f.name = name
  · subst hsame
    obtain rfl : number = first := by simpa [hnew] using h
    exact .inr ⟨hnew, f, List.find?_cons_of_pos (by simp), hline⟩
  · rw [if_neg hsame, Option.or_none] at h
    rcases h with hearlier | ⟨hnone, f', hf', hline'⟩
    · exact .inl hearlier
    · refine .inr ⟨hnone, f', ?_, hline'⟩
      rw [List.find?_cons_of_neg (by simpa using hsame), hf']

/-- **The entry that an error is about**: those before it are fields. -/
theorem fieldsOf_eq_error (h : fieldsOf source earlier es = .error err) :
    ∃ before e behind fields, es = before ++ e :: behind ∧
      fieldsOf source earlier before = .ok fields ∧ err.lineNumber = some e.number ∧
      err.line = some (String.ofList e.line) ∧
      ∀ name first, err.flaw = .repeated name first →
        e.HasName name ∧ FirstAt earlier fields name first := by
  induction es generalizing earlier with
  | nil => simp [fieldsOf] at h
  | cons e es ih =>
    rw [fieldsOf] at h
    simp only at h
    split at h
    · obtain rfl := Except.error.inj h
      exact ⟨[], e, es, [], rfl, rfl, rfl, rfl, by simp⟩
    rename_i parts hparts
    split at h
    · obtain rfl := Except.error.inj h
      exact ⟨[], e, es, [], rfl, rfl, rfl, rfl, by simp⟩
    rename_i htype
    split at h
    · rename_i line hline
      obtain rfl := Except.error.inj h
      refine ⟨[], e, es, [], rfl, rfl, rfl, rfl, fun name first hflaw => ?_⟩
      obtain ⟨rfl, rfl⟩ := Flaw.repeated.inj hflaw
      exact ⟨⟨parts, hparts, rfl⟩, .inl hline⟩
    · rename_i hnone
      cases hrest : fieldsOf source (earlier ++ [(String.ofList parts.name, e.number)]) es with
      | ok fields => simp [hrest, Except.map] at h
      | error err' =>
        -- the entry is a field before the one that the error is about
        obtain rfl : err' = err := by simpa [hrest, Except.map] using h
        obtain ⟨before, e', behind, fields, rfl, hbefore, hnumber, hline, hrepeats⟩ := ih hrest
        refine ⟨e :: before, e', behind, ⟨String.ofList parts.name, parts.isOptional,
          String.ofList parts.typeText, some e.number⟩ :: fields, rfl, ?_, hnumber, hline,
          fun name first hflaw => ?_⟩
        · simp only [fieldsOf, hparts, htype, if_false, hnone, hbefore, Except.map]
        · obtain ⟨hname, hfirst⟩ := hrepeats name first hflaw
          exact ⟨hname, hfirst.cons hnone rfl⟩

end Fields

/-! ## Reading a declaration -/

section Reading

variable {text source : String} {err : ParseError}

/-- A text has one declaration at most: it is the first one that starts, and it ends
with the first brace that closes it. -/
instance (text : List Char) : Subsingleton (Declaration text) := by
  constructor
  rintro ⟨before, body, behind, hsplit, hfirst, hclosed⟩ ⟨before', body', behind', hsplit', hfirst',
    hclosed'⟩
  have hrest := Option.some.inj (hfirst.symm.trans hfirst')
  rw [hrest] at hclosed hsplit
  obtain rfl := Option.some.inj (hclosed.symm.trans hclosed')
  obtain rfl := List.append_cancel_right (hsplit.symm.trans hsplit')
  obtain ⟨-, rfl⟩ := List.cons.inj (List.append_cancel_left hrest)
  rfl

/-- The entries of the declaration. -/
def Declaration.entries {text : List Char} (d : Declaration text) (source : String) :
    Except ParseError (List Entry) :=
  Payload.entries source (codeLines d.body d.firstLine)

/-- A flaw of a declaration that can be found stands in its body or in an entry. -/
theorem parse_eq_error (h : Payload.parse text source = .error err) :
    declaredBody source text.toList = .error err ∨
      ∃ d : Declaration text.toList, d.entries source = .error err ∨
        ∃ es, d.entries source = .ok es ∧ fieldsOf source [] es = .error err := by
  rw [parse_eq_bind] at h
  cases hbody : declaredBody source text.toList with
  | error e =>
    exact .inl (by simpa [hbody, Except.bind] using h)
  | ok found =>
    obtain ⟨body, firstLine⟩ := found
    obtain ⟨d, rfl, rfl⟩ := exists_declaration hbody
    rw [hbody] at h
    refine .inr ⟨d, ?_⟩
    rw [Declaration.entries]
    cases hentries : Payload.entries source (codeLines d.body d.firstLine) with
    | error e =>
      obtain rfl : e = err := by simpa [hentries, Except.bind] using h
      exact .inl rfl
    | ok es =>
      cases hfields : fieldsOf source [] es with
      | error e =>
        obtain rfl : e = err := by simpa [hentries, hfields, Except.bind, Except.map] using h
        exact .inr ⟨es, rfl, hfields⟩
      | ok fields => simp [hentries, hfields, Except.bind, Except.map] at h

/-- A declaration that is not there, or not closed, has no line to quote and no
fields. -/
theorem declaredBody_eq_error {text : List Char} (h : declaredBody source text = .error err) :
    err.line = none ∧ ∀ name first, err.flaw ≠ .repeated name first := by
  rw [declaredBody] at h
  split at h
  · obtain rfl := Except.error.inj h
    exact ⟨rfl, by simp⟩
  · simp only at h
    split at h
    · obtain rfl := Except.error.inj h
      exact ⟨rfl, by simp⟩
    · simp at h

/-- **An entry begins on a line of the text**, and none above the one before it. -/
theorem Declaration.entries_located {text : List Char} (d : Declaration text) {es : List Entry}
    (h : d.entries source = .ok es) :
    (∀ e ∈ es, d.Quotes e.number e.line) ∧ (es.map (·.number)).Pairwise (· ≤ ·) := by
  rw [Declaration.entries] at h
  have hsub := entries_starts h
  constructor
  · intro e he
    obtain ⟨l, hl, hstart⟩ := mem_lineStarts (hsub.subset (List.mem_map_of_mem he))
    obtain ⟨hnumber, hline⟩ := Prod.mk.inj hstart
    rw [hnumber, hline]
    exact d.quotes_of_mem hl
  · have hpairs := (lineStarts_pairwise (codeLinesFrom_pairwise _ _ _)).sublist hsub
    rw [List.pairwise_map] at hpairs ⊢
    exact hpairs

/-- **Errors and fields name the right lines.** An error that quotes a line quotes, without
the blanks around it, the line of the text with the number that it gives, or a part
of that line next to a brace of the declaration. An error about a repeated name names
the line of the first field with that name. The lines of the fields that are read go
down the text, from the brace that opens the declaration to the one that closes
it. -/
theorem parse_located (text source : String) :
    (∀ err quoted, Payload.parse text source = .error err → err.line = some quoted →
      ∃ (d : Declaration text.toList) (number : Nat), err.lineNumber = some number ∧
        d.Quotes number quoted.toList) ∧
    (∀ err name first, Payload.parse text source = .error err →
      err.flaw = .repeated name first →
      ∃ (d : Declaration text.toList) (before : List Entry) (e : Entry) (behind : List Entry)
        (fields : List Field),
        d.entries source = .ok (before ++ e :: behind) ∧ fieldsOf source [] before = .ok fields ∧
        err.lineNumber = some e.number ∧ e.HasName name ∧ IsFirstLine fields name first) ∧
    ∀ p, Payload.parse text source = .ok p →
      ∃ (d : Declaration text.toList) (numbers : List Nat),
        p.fields.map (·.line) = numbers.map (fun n : Nat => some (n : Int)) ∧
        numbers.Pairwise (· ≤ ·) ∧ ∀ n ∈ numbers, d.firstLine ≤ n ∧ n ≤ d.lastLine := by
  refine ⟨fun err quoted h hquoted => ?_, fun err name first h hflaw => ?_, fun p h => ?_⟩
  · rcases parse_eq_error h with hbody | ⟨d, hentries | ⟨es, hentries, hfields⟩⟩
    · simp [(declaredBody_eq_error hbody).1] at hquoted
    · obtain ⟨l, hl, hnumber, hline, -⟩ := entries_eq_error hentries
      obtain rfl := Option.some.inj (hquoted.symm.trans hline)
      refine ⟨d, l.number, hnumber, ?_⟩
      rw [String.toList_ofList]
      exact d.quotes_of_mem hl
    · obtain ⟨before, e, behind, fields, rfl, -, hnumber, hline, -⟩ := fieldsOf_eq_error hfields
      obtain rfl := Option.some.inj (hquoted.symm.trans hline)
      refine ⟨d, e.number, hnumber, ?_⟩
      rw [String.toList_ofList]
      exact (d.entries_located hentries).1 e (by simp)
  · rcases parse_eq_error h with hbody | ⟨d, hentries | ⟨es, hentries, hfields⟩⟩
    · exact absurd hflaw ((declaredBody_eq_error hbody).2 name first)
    · obtain ⟨l, -, -, -, hother⟩ := entries_eq_error hentries
      exact absurd hflaw (hother name first)
    · obtain ⟨before, e, behind, fields, rfl, hbefore, hnumber, -, hrepeats⟩ :=
        fieldsOf_eq_error hfields
      obtain ⟨hname, hfirst | ⟨-, hfirst⟩⟩ := hrepeats name first hflaw
      · simp [firstLine?] at hfirst
      · exact ⟨d, before, e, behind, fields, hentries, hbefore, hnumber, hname, hfirst⟩
  · obtain ⟨body, firstLine, es, hbody, hentries, hfields⟩ := parse_eq_ok h
    obtain ⟨d, rfl, rfl⟩ := exists_declaration hbody
    obtain ⟨hquotes, hpairs⟩ := d.entries_located hentries
    refine ⟨d, es.map (·.number), ?_, hpairs, fun n hn => ?_⟩
    · rw [lines_fieldsOf hfields, List.map_map]
      rfl
    · obtain ⟨e, he, rfl⟩ := List.mem_map.mp hn
      exact (hquotes e he).isWithin

private def repeatedText : String :=
  "type a\nexport type typePayload = \x7ba: b\n  id: \x7b\n    x: y \x7d; id: c;  \n\x7d"

private def repeatedDeclaration : Declaration repeatedText.toList :=
  ⟨"type a\nexport type typePayload = ".toList,
    "a: b\n  id: \x7b\n    x: y \x7d; id: c;  \n".toList, [], by decide, by decide, by decide⟩

/-- The name is repeated on the line on which the object type of the first field with
that name ends. -/
theorem parse_located_repeated :
    ∃ line fields, lineAt? repeatedText.toList 4 = some line ∧
      trim line = "x: y \x7d; id: c;".toList ∧ IsFirstLine fields "id" 3 := by
  have hparse : Payload.parse repeatedText "t" =
      .error ⟨.repeated "id" 3, "t", some 4, some "x: y \x7d; id: c;"⟩ := by rfl
  obtain ⟨hquotes, hrepeats, -⟩ := parse_located repeatedText "t"
  obtain ⟨d, number, hnumber, hd⟩ := hquotes _ _ hparse rfl
  obtain ⟨-, -, -, -, fields, -, -, -, -, hfirst⟩ := hrepeats _ _ _ hparse rfl
  obtain rfl := Option.some.inj hnumber
  -- there is only this declaration, from the second line to the fifth
  obtain rfl : d = repeatedDeclaration := Subsingleton.elim _ _
  obtain ⟨line, hline, -, hwhole⟩ := hd.isPart
  exact ⟨line, fields, hline, (hwhole (by decide) (by decide)).symm, hfirst⟩

end Reading

end Stencil.Payload
