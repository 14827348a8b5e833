import Stencil.Proofs.Payload.Head
import Stencil.Proofs.Payload.Joined
import Stencil.Proofs.Payload.Sweep

/-!
# Stencil — declared fields are read back

A declaration whose body lays out some fields is read as these fields, whatever
the layout: the pass over the body holds the text of the field it is in, and
none between two fields. What is written over several lines is read with a
space for every line end and the blanks around it.

Main results:

* `sweep_type`, `sweep_gap` — the pass over a type and over a gap;
* `sweep_layout` — the pass over a body;
* `parse_layout` — reading the declaration.
-/

namespace Stencil.Payload

open Stencil.Text Cutting

/-! ## What a cutting holds -/

/-- The finished entries, each taken apart. -/
def Cutting.finished (k : Cutting) : List (Option EntryParts) :=
  k.entries.map fun e => splitEntry? e.text

/-- Inside a field of which `text` has been read. -/
structure Reads (k : Cutting) (done : List (Option EntryParts)) (text : List Char)
    (quote : Option Char) (depth : Nat) : Prop where
  finished : k.finished = done
  held : ∃ e, k.current = some e ∧ e.parts ++ [k.stretch.reverse] = pieces '\n' text
  quote : k.quote = quote
  depth : k.depth = depth

/-- Between two fields. -/
structure Idle (k : Cutting) (done : List (Option EntryParts)) : Prop where
  finished : k.finished = done
  current : k.current = none
  blank : ∀ c ∈ k.stretch, isBlank c = true ∧ c ≠ '\n'
  quote : k.quote = none
  depth : k.depth = 0

section Cuttings

variable {k : Cutting} {done : List (Option EntryParts)} {text : List Char} {quote : Option Char}
  {depth : Nat} {c : Char}

theorem Reads.keep (h : Reads k done text quote depth) (l : CodeLine) (hc : c ≠ '\n')
    (quote' : Option Char) (depth' : Nat) :
    Reads (k.keep l c quote' depth') done (text ++ [c]) quote' depth' := by
  obtain ⟨e, hcurrent, hparts⟩ := h.held
  -- an entry is open, so none begins
  have henter : k.enter l c = k := by rw [enter, hcurrent]
  refine ⟨?_, ⟨e, ?_, ?_⟩, rfl, rfl⟩
  · rw [Cutting.keep, henter]
    exact h.finished
  · rw [Cutting.keep, henter]
    exact hcurrent
  · rw [Cutting.keep, henter, pieces_concat hc hparts.symm, List.reverse_cons]

/-- Inside a group the end of a line belongs to the field. -/
theorem Reads.endLine (h : Reads k done text quote depth) (hdepth : depth ≠ 0) :
    Reads k.endLine done (text ++ ['\n']) none depth := by
  obtain ⟨e, hcurrent, hparts⟩ := h.held
  -- the stretch of this line goes to the entry, and the next one is empty
  have hinside : k.depth ≠ 0 := h.depth ▸ hdepth
  rw [Cutting.endLine, hcurrent]
  simp only [if_neg hinside]
  refine ⟨h.finished, ⟨_, rfl, ?_⟩, rfl, h.depth⟩
  rw [pieces_concat_sep, ← hparts]
  rfl

/-- The entry that a field ends as. -/
theorem readAs_extend {e : Entry} {stretch : List Char}
    (h : e.parts ++ [stretch.reverse] = pieces '\n' text) :
    splitEntry? (e.extend stretch).text = readAs text := by
  show splitEntry? ([' '].intercalate (tidyParts (e.parts ++ [stretch.reverse]))) = readAs text
  rw [h, readAs, joined]

/-- Outside of groups a field ends with its line. -/
theorem Reads.idle_endLine (h : Reads k done text quote 0) :
    Idle k.endLine (done ++ [readAs text]) := by
  obtain ⟨e, hcurrent, hparts⟩ := h.held
  rw [Cutting.endLine, hcurrent]
  simp only [if_pos h.depth]
  refine ⟨?_, rfl, by simp, rfl, h.depth⟩
  rw [← h.finished, ← readAs_extend hparts]
  simp [Cutting.finished]

theorem Reads.idle_close (h : Reads k done text none 0) :
    Idle k.close (done ++ [readAs text]) := by
  obtain ⟨e, hcurrent, hparts⟩ := h.held
  rw [Cutting.close, hcurrent]
  refine ⟨?_, rfl, by simp, h.quote, h.depth⟩
  rw [← h.finished, ← readAs_extend hparts]
  simp [Cutting.finished]

theorem Idle.keep_blank (h : Idle k done) (l : CodeLine) (hc : isBlank c = true)
    (hline : c ≠ '\n') : Idle (k.keep l c none 0) done := by
  have henter : k.enter l c = k := by simp [enter, h.current, hc]
  rw [Cutting.keep, henter]
  refine ⟨h.finished, h.current, ?_, rfl, rfl⟩
  simpa [hc, hline] using h.blank

theorem Idle.endLine (h : Idle k done) : Idle k.endLine done := by
  rw [Cutting.endLine, h.current]
  exact ⟨h.finished, rfl, by simp, rfl, h.depth⟩

theorem Idle.close (h : Idle k done) : Idle k.close done := by
  rw [Cutting.close, h.current]
  refine ⟨?_, rfl, by simp, h.quote, h.depth⟩
  simpa [Cutting.finished] using h.finished

/-- The first character of a field. -/
theorem Idle.begin (h : Idle k done) (l : CodeLine) (hc : isBlank c = false) (hend : c ≠ ';')
    (hline : c ≠ '\n') :
    Reads (k.keep l c none 0) done (k.stretch.reverse ++ [c]) none 0 := by
  -- the blanks before the field are on its stretch already
  have henter : k.enter l c = { k with current := some ⟨l.number, l.line, []⟩ } := by
    simp [enter, h.current, hc, hend]
  rw [Cutting.keep, henter]
  refine ⟨h.finished, ⟨_, rfl, ?_⟩, rfl, rfl⟩
  have hnotMem : '\n' ∉ k.stretch.reverse ++ [c] := by
    intro hmem
    rcases List.mem_append.mp hmem with hmem | hmem
    · exact (h.blank _ (List.mem_reverse.mp hmem)).2 rfl
    · exact hline (List.mem_singleton.mp hmem).symm
  rw [pieces_of_notMem hnotMem, List.reverse_cons]
  rfl

end Cuttings

/-! ## Between fields -/

/-- Where no literal and no group is open: at the end of a field, which counts as
done already, or between two fields. -/
inductive Pending : (inField : Bool) → Cutting → List (Option EntryParts) → Prop
  | field {k : Cutting} {done : List (Option EntryParts)} {text : List Char} :
      Reads k done text none 0 → Pending true k (done ++ [readAs text])
  | idle {k : Cutting} {done : List (Option EntryParts)} : Idle k done → Pending false k done

namespace Pending

variable {inField : Bool} {k : Cutting} {done : List (Option EntryParts)} {c : Char}

theorem quote (h : Pending inField k done) : k.quote = none := by
  cases h with
  | field h => exact h.quote
  | idle h => exact h.quote

theorem depth (h : Pending inField k done) : k.depth = 0 := by
  cases h with
  | field h => exact h.depth
  | idle h => exact h.depth

theorem keep_blank (h : Pending inField k done) (l : CodeLine) (hc : isBlank c = true)
    (hline : c ≠ '\n') : Pending inField (k.keep l c none 0) done := by
  cases h with
  | field h =>
    -- a blank at the end of a field changes nothing of what it is read as
    rw [readAs, ← joined_concat_blank hc hline]
    exact .field (h.keep l hline none 0)
  | idle h => exact .idle (h.keep_blank l hc hline)

theorem endLine (h : Pending inField k done) : Pending false k.endLine done := by
  cases h with
  | field h => exact .idle h.idle_endLine
  | idle h => exact .idle h.endLine

theorem close (h : Pending inField k done) : Pending false k.close done := by
  cases h with
  | field h => exact .idle h.idle_close
  | idle h => exact .idle h.close

end Pending

/-! ## The pass over a type -/

section Sweeping

variable {source : String} {l : CodeLine} {k k' : Cutting} {done : List (Option EntryParts)}
  {isFresh : Bool} {c : Char} {text rest : List Char}

/-- One character of code. -/
theorem sweep_char (htake : k.take l c = .ok k') (hline : c ≠ '\n')
    (hopen : opensComment (c :: rest) = false) (hstar : isFresh = true → c ≠ '*') :
    sweep source ⟨.code, isFresh, false⟩ l k (c :: rest) =
      sweep source ⟨if isQuote c then .literal c else .code, isFresh && isBlank c, false⟩ l k'
        rest := by
  -- a star counts only where a line is fresh
  have hfresh : (isFresh && c == '*') = false := by
    cases isFresh with
    | false => rfl
    | true => simpa using hstar rfl
  rw [sweep_takes hline (by simp [Stand.takes, hopen, hfresh]), takeAll_cons_of_ok htake]
  show sweep source ((⟨.code, isFresh, false⟩ : Stand).after c rest) l k' rest = _
  simp [Stand.after, hopen, hfresh]

theorem sweep_plain (hq : k.quote = none) (hc : IsOrdinary c) (hline : c ≠ '\n')
    (hopen : opensComment (c :: rest) = false) (hstar : isFresh = true → c ≠ '*') :
    sweep source ⟨.code, isFresh, false⟩ l k (c :: rest) =
      sweep source ⟨.code, isFresh && isBlank c, false⟩ l (k.keep l c none k.depth) rest := by
  rw [sweep_char (take_ordinary hq hc) hline hopen hstar, hc.notQuote]
  rfl

/-- A brace or a semicolon. -/
theorem sweep_mark (htake : k.take l c = .ok k') (hc : c = '\x7b' ∨ c = '\x7d' ∨ c = ';') :
    sweep source ⟨.code, isFresh, false⟩ l k (c :: rest) =
      sweep source (.within .code) l k' rest := by
  have hmark : ∀ d, d ≠ '\x7b' → d ≠ '\x7d' → d ≠ ';' → c ≠ d := by
    rintro d hopen hclose hend rfl
    exact hc.elim hopen fun h => h.elim hclose hend
  have hquote : isQuote c = false := by rcases hc with rfl | rfl | rfl <;> rfl
  have hblank : isBlank c = false := by rcases hc with rfl | rfl | rfl <;> rfl
  rw [sweep_char htake (hmark _ (by decide) (by decide) (by decide))
    (opensComment_of_ne (hmark _ (by decide) (by decide) (by decide)))
    (fun _ => hmark _ (by decide) (by decide) (by decide)), hquote, hblank, Bool.and_false]
  rfl

/-- The rest of a literal is taken in as it is. -/
theorem sweep_content {q : Char} {content : List Char} {depth : Nat}
    (hq : q ≠ '\\' ∧ q ≠ '\n') (hcontent : ∀ c ∈ content, c ≠ q ∧ c ≠ '\\' ∧ c ≠ '\n')
    (hk : Reads k done text (some q) depth) :
    ∃ k', sweep source (.within (.literal q)) l k (content ++ q :: rest) =
        sweep source (.within .code) l k' rest ∧
      Reads k' done (text ++ (content ++ [q])) none depth := by
  -- on the content, up to the quote that closes it
  induction content generalizing k text with
  | nil =>
    have htake : k.take l q = .ok (k.keep l q none depth) := by
      rw [take_quoted hk.quote, if_pos rfl, hk.depth]
    refine ⟨k.keep l q none depth, ?_, hk.keep l hq.2 none depth⟩
    rw [List.nil_append, sweep_literal hq.2 hq.1, takeAll_cons_of_ok htake, if_pos rfl]
    rfl
  | cons c content ih =>
    obtain ⟨hne, hescape, hline⟩ := hcontent c (by simp)
    have htake : k.take l c = .ok (k.keep l c (some q) depth) := by
      rw [take_quoted hk.quote, if_neg hne, hk.depth]
    obtain ⟨k', hsweep, hreads⟩ := ih (fun d hd => hcontent d (by simp [hd]))
      (hk.keep l hline (some q) depth)
    refine ⟨k', ?_, by simpa using hreads⟩
    rw [List.cons_append, sweep_literal hline hescape, takeAll_cons_of_ok htake, if_neg hne]
    exact hsweep

theorem sweep_quoted {q : Char} {content : List Char} {depth : Nat} (hq : isQuote q = true)
    (hcontent : ∀ c ∈ content, c ≠ q ∧ c ≠ '\\' ∧ c ≠ '\n')
    (hk : Reads k done text none depth) :
    ∃ k', sweep source ⟨.code, isFresh, false⟩ l k (q :: (content ++ q :: rest)) =
        sweep source (.within .code) l k' rest ∧
      Reads k' done (text ++ (q :: (content ++ [q]))) none depth := by
  have hne : ∀ d, isQuote d = false → q ≠ d := fun d hd => ne_of_isQuote hq hd
  have htake : k.take l q = .ok (k.keep l q (some q) depth) := by
    rw [take_quote hk.quote hq, hk.depth]
  -- a quote is no blank, so the line is not fresh after it
  have hblank : isBlank q = false := by
    by_contra h
    have hordinary := IsOrdinary.of_isBlank (c := q) (by simpa using h)
    rw [hordinary.notQuote] at hq
    simp at hq
  have hone : sweep source ⟨.code, isFresh, false⟩ l k (q :: (content ++ q :: rest)) =
      sweep source (.within (.literal q)) l (k.keep l q (some q) depth) (content ++ q :: rest) := by
    rw [sweep_char htake (hne _ rfl) (opensComment_of_ne (hne _ rfl)) (fun _ => hne _ rfl),
      if_pos hq, hblank, Bool.and_false]
    rfl
  obtain ⟨k', hsweep, hreads⟩ : ∃ k',
      sweep source (.within (.literal q)) l (k.keep l q (some q) depth) (content ++ q :: rest) =
          sweep source (.within .code) l k' rest ∧
        Reads k' done (text ++ [q] ++ (content ++ [q])) none depth :=
    sweep_content ⟨hne _ rfl, hne _ rfl⟩ hcontent (hk.keep l (hne _ rfl) (some q) depth)
  exact ⟨k', hone.trans hsweep, by simpa using hreads⟩

theorem sweep_type {inGroup : Bool} (h : IsType inGroup text) {before : List Char}
    (hk : Reads k done before none inGroup.toNat)
    (hstar : isFresh = true → (text.dropWhile isBlank).head? ≠ some '*')
    (hapart : Apart text rest) :
    ∃ isFresh' l' k', sweep source ⟨.code, isFresh, false⟩ l k (text ++ rest) =
        sweep source ⟨.code, isFresh', false⟩ l' k' rest ∧
      Reads k' done (before ++ text) none 0 := by
  -- on the shape of the type; what has been read grows by each part of it
  induction h generalizing k l isFresh before with
  | done => exact ⟨isFresh, l, k, rfl, by simpa using hk⟩
  | @plain inGroup c text hc hline hopen _ ih =>
    have hne : isFresh = true → c ≠ '*' := by
      rintro hfresh rfl
      exact hstar hfresh rfl
    have hone : sweep source ⟨.code, isFresh, false⟩ l k (c :: (text ++ rest)) =
        sweep source ⟨.code, isFresh && isBlank c, false⟩ l (k.keep l c none inGroup.toNat)
          (text ++ rest) := by
      rw [sweep_plain hk.quote hc hline (hapart.opensComment hopen) hne, hk.depth]
    -- the line stays fresh through blanks, which its first character comes after
    have hfresh : (isFresh && isBlank c) = true → (text.dropWhile isBlank).head? ≠ some '*' := by
      intro hboth
      rw [Bool.and_eq_true] at hboth
      have hdrop := hstar hboth.1
      rwa [List.dropWhile_cons_of_pos hboth.2] at hdrop
    obtain ⟨isFresh', l', k', hsweep, hreads⟩ := ih (hk.keep l hline none inGroup.toNat) hfresh
      (.of_append (a := [c]) hapart)
    exact ⟨isFresh', l', k', hone.trans hsweep, by simpa using hreads⟩
  | @literal inGroup q content text hq hcontent _ ih =>
    have hsplit : q :: (content ++ q :: text) = (q :: (content ++ [q])) ++ text := by simp
    have happend : (q :: (content ++ q :: text)) ++ rest =
        q :: (content ++ q :: (text ++ rest)) := by simp
    obtain ⟨k₁, hone, hnext⟩ : ∃ k₁,
        sweep source ⟨.code, isFresh, false⟩ l k (q :: (content ++ q :: (text ++ rest))) =
            sweep source ⟨.code, false, false⟩ l k₁ (text ++ rest) ∧
          Reads k₁ done (before ++ (q :: (content ++ [q]))) none inGroup.toNat :=
      sweep_quoted hq hcontent hk
    -- after a literal no line is fresh
    rw [hsplit] at hapart
    obtain ⟨isFresh', l', k', hsweep, hreads⟩ := ih hnext (fun h : false = true => by simp at h)
      hapart.of_append
    exact ⟨isFresh', l', k', by rw [happend, hone, hsweep], by simpa using hreads⟩
  | @opens text _ ih =>
    have htake : k.take l '\x7b' = .ok (k.keep l '\x7b' none 1) := by
      rw [take_open hk.quote]
      exact if_pos hk.depth
    have hnext : Reads (k.keep l '\x7b' none 1) done (before ++ ['\x7b']) none 1 :=
      hk.keep l (by decide) none 1
    obtain ⟨isFresh', l', k', hsweep, hreads⟩ := ih hnext (fun h : false = true => by simp at h)
      (.of_append (a := ['\x7b']) hapart)
    exact ⟨isFresh', l', k', (sweep_mark htake (by simp)).trans hsweep, by simpa using hreads⟩
  | @closes text _ ih =>
    have htake : k.take l '\x7d' = .ok (k.keep l '\x7d' none 0) := by
      have hdepth : k.depth = 1 := hk.depth
      rw [take_close hk.quote, hdepth]
      rfl
    have hnext : Reads (k.keep l '\x7d' none 0) done (before ++ ['\x7d']) none 0 :=
      hk.keep l (by decide) none 0
    obtain ⟨isFresh', l', k', hsweep, hreads⟩ := ih hnext (fun h : false = true => by simp at h)
      (.of_append (a := ['\x7d']) hapart)
    exact ⟨isFresh', l', k', (sweep_mark htake (by simp)).trans hsweep, by simpa using hreads⟩
  | @semicolon text _ ih =>
    have htake : k.take l ';' = .ok (k.keep l ';' none 1) := by
      have hdepth : k.depth = 1 := hk.depth
      rw [take_semicolon hk.quote, hdepth]
      rfl
    have hnext : Reads (k.keep l ';' none 1) done (before ++ [';']) none 1 :=
      hk.keep l (by decide) none 1
    obtain ⟨isFresh', l', k', hsweep, hreads⟩ := ih hnext (fun h : false = true => by simp at h)
      (.of_append (a := [';']) hapart)
    exact ⟨isFresh', l', k', (sweep_mark htake (by simp)).trans hsweep, by simpa using hreads⟩
  | @newline text htext _ ih =>
    -- the line end belongs to the type, and the next line does not start with a star
    have hone : sweep source ⟨.code, isFresh, false⟩ l k ('\n' :: (text ++ rest)) =
        sweep source ⟨.code, true, false⟩ (openingLine (l.number + 1) (text ++ rest)) k.endLine
          (text ++ rest) :=
      sweep_newline
    obtain ⟨isFresh', l', k', hsweep, hreads⟩ := ih (hk.endLine (by simp)) (fun _ => htext)
      (.of_append (a := ['\n']) hapart)
    exact ⟨isFresh', l', k', hone.trans hsweep, by simpa using hreads⟩

/-! ## The pass over a gap -/

/-- A block comment ends a field if it runs over the end of a line. -/
theorem sweep_blockText {inField : Bool} (htext : ¬ ['*', '/'] <:+: text)
    (hk : Pending inField k done) :
    ∃ l' k', sweep source (.within .blockComment) l k (text ++ '*' :: '/' :: rest) =
        sweep source (.within .code) l' k' rest ∧
      Pending (inField && !text.contains '\n') k' done := by
  induction text generalizing k l inField with
  | nil => exact ⟨l, k, sweep_closesBlock, by simpa using hk⟩
  | cons c text ih =>
    have htext' : ¬ ['*', '/'] <:+: text :=
      fun h => htext (h.trans (List.suffix_cons c text).isInfix)
    -- a line end within the comment ends the field like any other
    by_cases hline : c = '\n'
    · subst hline
      obtain ⟨l', k', hsweep, hpending⟩ := ih (l := openingLine (l.number + 1) _) htext' hk.endLine
      exact ⟨l', k', sweep_newline.trans hsweep, by simpa using hpending⟩
    · obtain ⟨l', k', hsweep, hpending⟩ := ih (l := l) htext' hk
      refine ⟨l', k', (sweep_block hline (closesComment_inside htext)).trans hsweep, ?_⟩
      simpa [Ne.symm hline] using hpending

theorem sweep_gap {ends inField : Bool} {gap : List Char} (h : IsGap ends gap)
    (hk : Pending inField k done) :
    ∃ isFresh' l' k', sweep source ⟨.code, isFresh, false⟩ l k (gap ++ rest) =
        sweep source ⟨.code, isFresh', false⟩ l' k' rest ∧
      Pending (inField && !ends) k' done := by
  -- on the shape of the gap; a field is open until it has been ended
  induction h generalizing k l isFresh inField with
  | nil => exact ⟨isFresh, l, k, rfl, by simpa using hk⟩
  | @blank ends c gap hc _ ih =>
    by_cases hline : c = '\n'
    · subst hline
      have hone : sweep source ⟨.code, isFresh, false⟩ l k ('\n' :: (gap ++ rest)) =
          sweep source ⟨.code, true, false⟩ (openingLine (l.number + 1) (gap ++ rest)) k.endLine
            (gap ++ rest) :=
        sweep_newline
      obtain ⟨isFresh', l', k', hsweep, hpending⟩ := ih hk.endLine
      exact ⟨isFresh', l', k', hone.trans hsweep, by simpa using hpending⟩
    · have hone : sweep source ⟨.code, isFresh, false⟩ l k (c :: (gap ++ rest)) =
          sweep source ⟨.code, isFresh && isBlank c, false⟩ l (k.keep l c none 0)
            (gap ++ rest) := by
        rw [sweep_plain hk.quote (.of_isBlank hc) hline (opensComment_of_ne (ne_of_isBlank hc rfl))
          (fun _ => ne_of_isBlank hc rfl), hk.depth]
      obtain ⟨isFresh', l', k', hsweep, hpending⟩ := ih (hk.keep_blank l hc hline)
      have hends : (c == '\n' || ends) = ends := by simp [hline]
      exact ⟨isFresh', l', k', hone.trans hsweep, by rwa [hends]⟩
  | @semicolon ends gap _ ih =>
    have htake : k.take l ';' = .ok k.close := by
      rw [take_semicolon hk.quote, if_pos hk.depth]
    obtain ⟨isFresh', l', k', hsweep, hpending⟩ := ih hk.close
    exact ⟨isFresh', l', k', (sweep_mark htake (by simp)).trans hsweep, by simpa using hpending⟩
  | @lineComment ends text gap htext _ ih =>
    have happend : '/' :: '/' :: (text ++ '\n' :: gap) ++ rest =
        '/' :: '/' :: (text ++ '\n' :: (gap ++ rest)) := by simp
    have hone : sweep source ⟨.code, isFresh, false⟩ l k
          ('/' :: '/' :: (text ++ '\n' :: (gap ++ rest))) =
        sweep source ⟨.code, true, false⟩ (openingLine (l.number + 1) (gap ++ rest)) k.endLine
          (gap ++ rest) := by
      rw [sweep_opensLine, sweep_lineComment htext, sweep_newline]
      rfl
    obtain ⟨isFresh', l', k', hsweep, hpending⟩ := ih hk.endLine
    exact ⟨isFresh', l', k', by rw [happend, hone, hsweep], by simpa using hpending⟩
  | @blockComment ends text gap htext _ ih =>
    have happend : '/' :: '*' :: (text ++ '*' :: '/' :: gap) ++ rest =
        '/' :: '*' :: (text ++ '*' :: '/' :: (gap ++ rest)) := by simp
    obtain ⟨l₁, k₁, hone, hnext⟩ : ∃ l₁ k₁,
        sweep source (.within .blockComment) l k (text ++ '*' :: '/' :: (gap ++ rest)) =
            sweep source ⟨.code, false, false⟩ l₁ k₁ (gap ++ rest) ∧
          Pending (inField && !text.contains '\n') k₁ done :=
      sweep_blockText htext hk
    obtain ⟨isFresh', l', k', hsweep, hpending⟩ := ih hnext
    refine ⟨isFresh', l', k', by rw [happend, sweep_opensBlock, hone, hsweep], ?_⟩
    simpa [Bool.and_assoc] using hpending

/-! ## The pass over a layout -/

theorem sweep_field {f : Declared} {space : List Char}
    (hspace : ∀ c ∈ space, isBlank c = true ∧ c ≠ '\n') (hk : Idle k done)
    (hapart : Apart (f.text space) rest) :
    ∃ isFresh' l' k', sweep source ⟨.code, isFresh, false⟩ l k (f.text space ++ rest) =
        sweep source ⟨.code, isFresh', false⟩ l' k' rest ∧
      Pending true k' (done ++ [some f.parts]) := by
  obtain ⟨c, text, htext, hstart⟩ := f.exists_text space
  have hpart := isIdentifierPart_of_start hstart
  obtain ⟨hordinary, hline, hslash⟩ := plain_of_isIdentifierPart hpart
  have hblank := isBlank_of_isIdentifierPart hpart
  have hstar : c ≠ '*' := by
    rintro rfl
    simp [isIdentifierPart] at hpart
  -- what the whole text of the field will be read as
  have hentry : readAs (k.stretch.reverse ++ f.text space) = some f.parts :=
    f.readAs_text hspace fun d hd => hk.blank d (List.mem_reverse.mp hd)
  have htype := Declared.isType_text (f := f) hspace
  rw [htext] at htype hapart hentry ⊢
  -- behind its first character the field is still a type
  have hrest : IsType false text := by
    cases htype with
    | plain _ _ _ h => exact h
    | literal hq _ _ =>
      rw [hordinary.notQuote] at hq
      simp at hq
    | opens _ => exact (hordinary.notOpen rfl).elim
  have hone : sweep source ⟨.code, isFresh, false⟩ l k (c :: (text ++ rest)) =
      sweep source ⟨.code, isFresh && isBlank c, false⟩ l (k.keep l c none 0) (text ++ rest) := by
    rw [sweep_plain hk.quote hordinary hline (opensComment_of_ne hslash) (fun _ => hstar), hk.depth]
  have hbegin := hk.begin l hblank hordinary.notEnd hline
  obtain ⟨isFresh', l', k', hsweep, hreads⟩ := sweep_type hrest hbegin
    (fun hfresh : (isFresh && isBlank c) = true => by simp [hblank] at hfresh)
    (.of_append (a := [c]) hapart)
  refine ⟨isFresh', l', k', hone.trans hsweep, ?_⟩
  rw [List.append_assoc, List.singleton_append] at hreads
  rw [← hentry]
  exact .field hreads

/-- **The pass over a body** comes to the fields that are laid out in it. -/
theorem sweep_layout {separated : Bool} {fields : List Declared} {body : List Char}
    (h : IsLayout separated fields body) (hk : Pending separated k done) :
    ∃ k', sweep source ⟨.code, isFresh, false⟩ l k body = .ok k' ∧
      Idle k' (done ++ fields.map fun f => some f.parts) := by
  -- on the fields; between two of them the cutting is idle
  induction h generalizing k l isFresh done with
  | @done separated ends gap hgap =>
    obtain ⟨isFresh', l', k', hsweep, hpending⟩ : ∃ isFresh' l' k',
        sweep source ⟨.code, isFresh, false⟩ l k (gap ++ []) =
            sweep source ⟨.code, isFresh', false⟩ l' k' [] ∧
          Pending (separated && !ends) k' done :=
      sweep_gap hgap hk
    rw [List.append_nil] at hsweep
    refine ⟨k'.endLine, hsweep, ?_⟩
    cases hpending.endLine with
    | idle hidle => simpa using hidle
  | @field separated ends gap space body f fields hgap hends hspace hslash hlayout ih =>
    -- the gap ends the field before it, if there is one
    obtain ⟨isFresh₁, l₁, k₁, hsweepGap, hpending⟩ : ∃ isFresh₁ l₁ k₁,
        sweep source ⟨.code, isFresh, false⟩ l k (gap ++ (f.text space ++ body)) =
            sweep source ⟨.code, isFresh₁, false⟩ l₁ k₁ (f.text space ++ body) ∧
          Pending (separated && !ends) k₁ done :=
      sweep_gap hgap hk
    have hidle : Idle k₁ done := by
      have hended : (separated && !ends) = false := by
        cases separated with
        | false => rfl
        | true => simp [hends rfl]
      rw [hended] at hpending
      cases hpending with
      | idle hidle => exact hidle
    have hapart : Apart (f.text space) body := by
      have happend : Apart (f.text space) (body ++ []) :=
        hlayout.apart hslash (by simp [FreeStart])
      rwa [List.append_nil] at happend
    obtain ⟨isFresh₂, l₂, k₂, hsweepField, hfield⟩ : ∃ isFresh₂ l₂ k₂,
        sweep source ⟨.code, isFresh₁, false⟩ l₁ k₁ (f.text space ++ body) =
            sweep source ⟨.code, isFresh₂, false⟩ l₂ k₂ body ∧
          Pending true k₂ (done ++ [some f.parts]) :=
      sweep_field hspace hidle hapart
    obtain ⟨k', hsweep, hdone⟩ := ih hfield
    refine ⟨k', hsweepGap.trans (hsweepField.trans hsweep), ?_⟩
    rwa [List.append_assoc] at hdone

end Sweeping

/-! ## Reading the fields -/

/-- **Entries with different names** are read as the fields they were declared as. -/
theorem fieldsOf_declared {source : String} {fields : List Declared} {es : List Entry}
    {earlier : List (String × Nat)}
    (hes : (es.map fun e => splitEntry? e.text) = fields.map fun f => some f.parts)
    (hdistinct : (fields.map (·.name)).Nodup)
    (hearlier : ∀ f ∈ fields, ∀ p ∈ earlier, p.1 ≠ String.ofList f.name) :
    ∃ read, fieldsOf source earlier es = .ok read ∧
      (read.map fun r => (r.name, r.isOptional, r.typeText)) =
        fields.map fun f =>
          (String.ofList f.name, f.isOptional, String.ofList (joined f.typeText)) := by
  induction fields generalizing es earlier with
  | nil =>
    obtain rfl := List.map_eq_nil_iff.mp hes
    exact ⟨[], rfl, rfl⟩
  | cons f fields ih =>
    cases es with
    | nil => simp at hes
    | cons e es =>
      have hentry : splitEntry? e.text = some f.parts := (List.cons.inj hes).1
      obtain ⟨hnew, hdistinct⟩ := List.nodup_cons.mp hdistinct
      have hfirst : firstLine? (String.ofList f.name) earlier = none := by
        have hnone : earlier.find? (·.1 == String.ofList f.name) = none := by
          refine List.find?_eq_none.mpr fun p hp => ?_
          simpa using hearlier f (by simp) p hp
        rw [firstLine?, hnone]
        rfl
      -- the others do not have the name of `f` either
      have hearlier' : ∀ g ∈ fields, ∀ p ∈ earlier ++ [(String.ofList f.name, e.number)],
          p.1 ≠ String.ofList g.name := by
        intro g hg p hp
        rcases List.mem_append.mp hp with hp | hp
        · exact hearlier g (by simp [hg]) p hp
        · obtain rfl := List.mem_singleton.mp hp
          intro hsame
          exact hnew (List.mem_map.mpr ⟨g, hg, (String.ofList_injective hsame).symm⟩)
      obtain ⟨read, hread, hfields⟩ := ih (List.cons.inj hes).2 hdistinct hearlier'
      refine ⟨⟨String.ofList f.name, f.isOptional, String.ofList (joined f.typeText),
        some e.number⟩ :: read, ?_, ?_⟩
      · rw [fieldsOf, hentry]
        simp only [Declared.parts, if_neg f.joined_typeText_ne_nil, hfirst, hread]
        rfl
      · rw [List.map_cons, hfields, List.map_cons]

/-- How a declaration begins. -/
def declarationHead : String :=
  "export type typePayload = \x7b"

/-- The text of a declaration with the given body, and anything after it. -/
def declaration (body rest : List Char) : List Char :=
  declarationHead.toList ++ (body ++ '\x7d' :: rest)

/-- One space before a word is all there is to drop. -/
theorem dropWhile_space {word : String} {c : Char} (hword : word.toList.head? = some c)
    (hc : isBlank c = false) (cs : List Char) :
    (' ' :: (word.toList ++ cs)).dropWhile isBlank = word.toList ++ cs := by
  obtain ⟨w, hw⟩ := List.head?_eq_some_iff.mp hword
  rw [List.dropWhile_cons_of_pos (by decide), hw, List.cons_append,
    List.dropWhile_cons_of_neg (by simp [hc])]

theorem dropBlanks_space {word : String} {c : Char} (hword : word.toList.head? = some c)
    (hc : isBlank c = false) (cs : List Char) :
    dropBlanks (' ' :: (word.toList ++ cs)) = some (word.toList ++ cs) := by
  have hspace := dropWhile_space hword hc cs
  rw [List.dropWhile_cons_of_pos (by decide)] at hspace
  rw [dropBlanks, if_pos (by decide), hspace]

theorem dropHead_declaration (cs : List Char) :
    dropHead (declarationHead.toList ++ cs) = some cs := by
  have hsplit : declarationHead.toList ++ cs =
      "export".toList ++ (' ' :: ("type".toList ++ (' ' :: (payloadTypeName.toList ++ (' ' ::
        ("=".toList ++ (' ' :: ("\x7b".toList ++ cs)))))))) := rfl
  rw [hsplit, dropHead]
  simp only [dropWord_append, Option.bind_eq_bind, Option.bind_some]
  rw [dropBlanks_space (c := 't') rfl rfl, Option.bind_some, dropWord_append, Option.bind_some,
    dropBlanks_space (c := 't') rfl rfl, Option.bind_some, dropWord_append, Option.bind_some,
    dropWhile_space (c := '=') rfl rfl, dropWord_append, Option.bind_some,
    dropWhile_space (c := '\x7b') rfl rfl, dropWord_append]

theorem declaredBody_declaration {separated : Bool} {fields : List Declared} {body : List Char}
    (h : IsLayout separated fields body) (source : String) (rest : List Char) :
    declaredBody source (declaration body rest) = .ok (body, 1) := by
  have hnonempty : declaration body rest ≠ [] :=
    List.append_ne_nil_of_right_ne_nil _ (by simp)
  have hafter : afterHead? (declaration body rest) = some (body ++ '\x7d' :: rest) :=
    afterHead?_of_dropHead hnonempty (dropHead_declaration _)
  have hfeeds : lineFeeds (declaration body rest) = lineFeeds (body ++ '\x7d' :: rest) := by
    have hhead : declarationHead.toList.count '\n' = 0 := by decide
    rw [lineFeeds, declaration, List.count_append, hhead, Nat.zero_add, lineFeeds]
  rw [declaredBody, hafter]
  simp only [hfeeds, body?_layout h rest, Nat.sub_self, Nat.zero_add]

/-- Reading a declaration comes to the fields that are laid out in its body. -/
theorem parse_declared {fields : List Declared} {body : List Char}
    (h : IsLayout false fields body) (hdistinct : (fields.map (·.name)).Nodup)
    (rest : List Char) (source : String) :
    ∃ payload, Payload.parse (String.ofList (declaration body rest)) source = .ok payload ∧
      payload.source = source ∧
      (payload.fields.map fun r => (r.name, r.isOptional, r.typeText)) =
        fields.map fun f =>
          (String.ofList f.name, f.isOptional, String.ofList (joined f.typeText)) := by
  have hstart : Pending false .start [] := .idle ⟨rfl, rfl, by simp [start], rfl, rfl⟩
  obtain ⟨k, hsweep, hidle⟩ : ∃ k,
      sweep source .begin (openingLine 1 body) .start body = .ok k ∧
        Idle k ([] ++ fields.map fun f => some f.parts) :=
    sweep_layout h hstart
  -- no field is open at the end of the body
  have hbody : sweepBody source body 1 = .ok k.entries := by
    rw [sweepBody, hsweep]
    show finish source k = .ok k.entries
    rw [finish, hidle.current]
  obtain ⟨read, hread, hfields⟩ : ∃ read, fieldsOf source [] k.entries = .ok read ∧ _ :=
    fieldsOf_declared hidle.finished hdistinct (by simp)
  have hdeclared := declaredBody_declaration h source rest
  refine ⟨⟨read, source⟩, ?_, rfl, hfields⟩
  rw [parse_of_declaredBody (by rw [String.toList_ofList]; exact hdeclared), hbody]
  show (fieldsOf source [] k.entries).map _ = _
  rw [hread]
  rfl

/-- **A declaration is read as the fields that are laid out in it**, in their order
and with their marks, whatever the layout. The type of a field is read on one
line: a type that is written on one line without blanks around it is read as it
is written. -/
theorem parse_layout {fields : List Declared} {body : List Char}
    (h : IsLayout false fields body) (hdistinct : (fields.map (·.name)).Nodup)
    (rest : List Char) (source : String) :
    (∃ payload, Payload.parse (String.ofList (declaration body rest)) source = .ok payload ∧
      payload.source = source ∧
      (payload.fields.map fun r => (r.name, r.isOptional, r.typeText)) =
        fields.map fun f =>
          (String.ofList f.name, f.isOptional, String.ofList (joined f.typeText))) ∧
    ∀ f ∈ fields, '\n' ∉ f.typeText → trim f.typeText = f.typeText →
      joined f.typeText = f.typeText :=
  ⟨parse_declared h hdistinct rest source, fun _ _ hline htrim => joined_eq_self hline htrim⟩

/-- A field with a group over two lines, and an optional one after a comment. -/
theorem parse_layout_two :
    ∃ payload, Payload.parse "export type typePayload = \x7ba:\x7b\n\x7d;/*c*/b?:n\x7d" "t" =
        .ok payload ∧
      (payload.fields.map fun r => (r.name, r.isOptional, r.typeText)) =
        [("a", false, "\x7b \x7d"), ("b", true, "n")] := by
  let a : Declared := ⟨['a'], false, "\x7b\n\x7d".toList, by decide,
    .opens (.newline (by decide) (.closes .done)), '\x7b', by decide, by decide⟩
  let b : Declared := ⟨['b'], true, ['n'], by decide,
    .plain ⟨by decide, by decide, by decide, by decide⟩ (by decide) rfl .done, 'n', by decide,
    by decide⟩
  have hcomment : IsGap (['c'].contains '\n' || false) "/*c*/".toList :=
    .blockComment (by decide) .nil
  have hlast : IsLayout true [b] (";/*c*/".toList ++ (b.text [] ++ [])) :=
    .field (.semicolon hcomment) (fun _ => rfl) (by simp) (by simp) (.done .nil)
  have hlayout : IsLayout false [a, b] ([] ++ (a.text [] ++ ";/*c*/b?:n".toList)) :=
    .field .nil (by simp) (by simp) (by decide) hlast
  obtain ⟨⟨payload, hparse, -, hfields⟩, -⟩ := parse_layout hlayout (by decide) [] "t"
  exact ⟨payload, hparse, hfields⟩

/-- A type is not always read as it is written: not if it runs over the end of a
line, and not if it ends in a slash and a comment follows. -/
theorem parse_not_verbatim :
    (∃ f : Declared, IsLayout false [f] (f.text []) ∧ String.ofList f.typeText = "\x7b\n\x7d" ∧
      ((Payload.parse (String.ofList (declaration (f.text []) [])) "t").toOption.map fun p =>
        p.fields.map (·.typeText)) = some ["\x7b \x7d"]) ∧
    ∃ (f : Declared) (gap : List Char), IsGap true gap ∧ String.ofList f.typeText = "b/" ∧
      ((Payload.parse (String.ofList (declaration (f.text [] ++ gap) [])) "t").toOption.map fun p =>
        p.fields.map (·.typeText)) = some ["b"] := by
  let group : Declared := ⟨['a'], false, "\x7b\n\x7d".toList, by decide,
    .opens (.newline (by decide) (.closes .done)), '\x7b', by decide, by decide⟩
  let slash : Declared := ⟨['a'], false, ['b', '/'], by decide,
    .plain ⟨by decide, by decide, by decide, by decide⟩ (by decide) rfl
      (.plain ⟨by decide, by decide, by decide, by decide⟩ (by decide) rfl .done), 'b', by decide,
    by decide⟩
  have hgroup : IsLayout false [group] ([] ++ (group.text [] ++ [])) :=
    .field .nil (by simp) (by simp) (by decide) (.done .nil)
  have hgap : IsGap true ('/' :: '/' :: (['c'] ++ '\n' :: [])) := .lineComment (by decide) .nil
  exact ⟨⟨group, hgroup, rfl, by decide +kernel⟩, slash, _, hgap, rfl, by decide +kernel⟩

end Stencil.Payload
