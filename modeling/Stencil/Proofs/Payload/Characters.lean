import Stencil.Proofs.Payload.Scan
import Stencil.Proofs.Text.Pieces

/-!
# Stencil — the characters of parsed fields

Reading a declaration drops characters and cuts texts, and adds nothing but the
space between the stretches of an entry. What a field is made of therefore
stands in the source text, and because a body is read line by line, no line feed
is part of it.

Main results:

* `mem_of_mem_code` — the code of a body's lines;
* `mem_entryText` — the text of an entry;
* `parse_characters` — the names and types of parsed fields.
-/

namespace Stencil.Payload

open Stencil.Text Cutting

/-! ## The body of the declaration -/

/-- The body of a declaration stands in the text. -/
theorem mem_of_mem_declaredBody {source : String} {text body : List Char} {firstLine : Nat}
    (h : declaredBody source text = .ok (body, firstLine)) : ∀ c ∈ body, c ∈ text := by
  obtain ⟨-, before, tail, rfl, -⟩ := declaredBody_replace h
  intro c hc
  exact List.mem_append_right before (List.mem_append_left _ hc)

/-! ## The code of its lines -/

/-- Taking comments out only takes away. -/
theorem stripComments_sublist (region : Region) (line : List Char) :
    (stripComments region line).1.Sublist line := by
  fun_induction stripComments region line with
  | case1 => exact .slnil
  | case2 => exact .slnil
  | case3 => exact List.nil_sublist _
  | case4 rest ih => exact (ih.cons _).cons _
  | case5 c rest _ ih => exact ih.cons _
  | case6 q c rest code isOpen heq ih =>
    rw [heq] at ih
    exact (ih.cons_cons _).cons_cons _
  | case7 q c rest _ code isOpen heq ih =>
    rw [heq] at ih
    exact ih.cons_cons _
  | case8 => exact List.nil_sublist _
  | case9 rest ih => exact (ih.cons _).cons _
  | case10 c rest _ _ code isOpen heq ih =>
    rw [heq] at ih
    exact ih.cons_cons _

theorem codeOf_sublist (inComment : Bool) (line : List Char) :
    (codeOf inComment line).1.Sublist line := by
  rw [codeOf]
  split
  · exact stripComments_sublist _ _
  · split
    · exact List.nil_sublist _
    · exact stripComments_sublist _ _

private theorem mem_of_mem_codeFrom {number : Nat} {inComment : Bool} {raws : List (List Char)}
    {l : CodeLine} (hl : l ∈ codeLinesFrom number inComment raws) {c : Char} (hc : c ∈ l.code) :
    ∃ raw ∈ raws, c ∈ raw := by
  induction raws generalizing number inComment with
  | nil => simp [codeLinesFrom] at hl
  | cons raw raws ih =>
    have hlater : ∀ {isOpen : Bool}, l ∈ codeLinesFrom (number + 1) isOpen raws →
        ∃ raw' ∈ raw :: raws, c ∈ raw' := by
      intro isOpen hl
      obtain ⟨raw', hraw', hc'⟩ := ih hl
      exact ⟨raw', List.mem_cons_of_mem raw hraw', hc'⟩
    simp only [codeLinesFrom] at hl
    split at hl
    · exact hlater hl
    · rename_i d ds hcode
      rcases List.mem_cons.mp hl with rfl | hl
      · -- the code is what is left of the trimmed line, and trimmed again
        have htrim : c ∈ trim (codeOf inComment (trim raw)).1 := hcode ▸ hc
        have hline := (codeOf_sublist inComment (trim raw)).subset (mem_of_mem_trim htrim)
        exact ⟨raw, by simp, mem_of_mem_trim hline⟩
      · exact hlater hl

/-- **The code of a body's lines** stands in the body and has no line feed. -/
theorem mem_of_mem_code {body : List Char} {firstLine : Nat} {l : CodeLine}
    (hl : l ∈ codeLines body firstLine) : ∀ c ∈ l.code, c ∈ body ∧ c ≠ '\n' := by
  intro c hc
  obtain ⟨raw, hraw, hc⟩ := mem_of_mem_codeFrom hl hc
  exact mem_of_mem_pieces hraw c hc

/-! ## The entries -/

/-- The stretches of an entry are made of these characters. -/
def Entry.MadeOf (P : Char → Prop) (e : Entry) : Prop :=
  ∀ part ∈ e.parts, ∀ c ∈ part, P c

/-- So is everything that has been cut. -/
structure Cutting.MadeOf (P : Char → Prop) (k : Cutting) : Prop where
  entries : ∀ e ∈ k.entries, e.MadeOf P
  current : ∀ e, k.current = some e → e.MadeOf P
  stretch : ∀ c ∈ k.stretch, P c

section Cut

variable {P : Char → Prop} {l : CodeLine} {k k' : Cutting} {source : String}

theorem Entry.MadeOf.extend {e : Entry} {stretch : List Char} (h : e.MadeOf P)
    (hstretch : ∀ c ∈ stretch, P c) : (e.extend stretch).MadeOf P := by
  intro part hpart c hc
  rcases List.mem_append.mp hpart with hpart | hpart
  · exact h part hpart c hc
  · obtain rfl := List.mem_singleton.mp hpart
    exact hstretch c (List.mem_reverse.mp hc)

theorem Cutting.MadeOf.enter (h : k.MadeOf P) (l : CodeLine) (c : Char) :
    (k.enter l c).MadeOf P := by
  rw [Cutting.enter]
  split
  · exact h
  · split
    · exact h
    · refine ⟨h.entries, ?_, h.stretch⟩
      -- a new entry has no stretches yet
      rintro e he part hpart
      obtain rfl := Option.some.inj he
      simp at hpart

theorem Cutting.MadeOf.close (h : k.MadeOf P) : k.close.MadeOf P := by
  refine ⟨fun e he => ?_, by simp [Cutting.close], by simp [Cutting.close]⟩
  rcases List.mem_append.mp he with he | he
  · exact h.entries e he
  · obtain ⟨e', he', rfl⟩ := Option.map_eq_some_iff.mp (Option.mem_toList.mp he)
    exact (h.current e' he').extend h.stretch

theorem Cutting.MadeOf.endLine (h : k.MadeOf P) : k.endLine.MadeOf P := by
  rw [Cutting.endLine]
  split
  · exact ⟨h.entries, h.current, by simp⟩
  · rename_i e he
    have hextended := (h.current e he).extend h.stretch
    split
    · refine ⟨fun e' he' => ?_, by simp, by simp⟩
      rcases List.mem_append.mp he' with he' | he'
      · exact h.entries e' he'
      · rwa [List.mem_singleton.mp he']
    · refine ⟨h.entries, ?_, by simp⟩
      rintro e' he'
      rwa [← Option.some.inj he']

theorem Cutting.MadeOf.keep (h : k.MadeOf P) (l : CodeLine) {c : Char} (hc : P c)
    (quote : Option Char) (depth : Nat) : (k.keep l c quote depth).MadeOf P :=
  have henter := h.enter l c
  ⟨henter.entries, henter.current, List.forall_mem_cons.mpr ⟨hc, henter.stretch⟩⟩

/-- One character more. -/
theorem Cutting.MadeOf.take (h : k.MadeOf P) {c : Char} (hc : P c) (hk : k.take l c = .ok k') :
    k'.MadeOf P := by
  rcases take_cases l k c with ⟨quote, depth, hkeep⟩ | ⟨-, hclose⟩ | hdeep | hstray
  · obtain rfl := Except.ok.inj (hkeep.symm.trans hk)
    exact h.keep l hc quote depth
  · obtain rfl := Except.ok.inj (hclose.symm.trans hk)
    exact h.close
  · simp [hdeep] at hk
  · simp [hstray] at hk

/-- The characters of a line. -/
theorem Cutting.MadeOf.takeAll (h : k.MadeOf P) {cs : List Char} (hcs : ∀ c ∈ cs, P c)
    (hk : cs.foldlM (Cutting.take l) k = .ok k') : k'.MadeOf P := by
  induction cs generalizing k with
  | nil => exact Except.ok.inj hk ▸ h
  | cons c cs ih =>
    rw [List.foldlM_cons] at hk
    cases htake : Cutting.take l k c with
    | error flaw => simp [htake, bind, Except.bind] at hk
    | ok k₁ =>
      rw [htake] at hk
      exact ih (h.take (hcs c (by simp)) htake) (fun d hd => hcs d (by simp [hd])) hk

theorem Cutting.MadeOf.takeLine (h : k.MadeOf P) (hl : ∀ c ∈ l.code, P c)
    (hk : k.takeLine source l = .ok k') : k'.MadeOf P := by
  rw [Cutting.takeLine] at hk
  split at hk
  · simp at hk
  · rename_i k₁ hall
    exact Except.ok.inj hk ▸ (h.takeAll hl hall).endLine

/-- The lines of a body. -/
theorem Cutting.MadeOf.takeLines (h : k.MadeOf P) {ls : List CodeLine}
    (hls : ∀ l ∈ ls, ∀ c ∈ l.code, P c)
    (hk : ls.foldlM (Cutting.takeLine source) k = .ok k') : k'.MadeOf P := by
  induction ls generalizing k with
  | nil => exact Except.ok.inj hk ▸ h
  | cons l ls ih =>
    rw [List.foldlM_cons] at hk
    cases hline : Cutting.takeLine source k l with
    | error e => simp [hline, bind, Except.bind] at hk
    | ok k₁ =>
      rw [hline] at hk
      exact ih (h.takeLine (hls l (by simp)) hline) (fun l' hl' => hls l' (by simp [hl'])) hk

/-- **Every entry is made of the characters of the lines.** -/
theorem madeOf_entries {ls : List CodeLine} {es : List Entry}
    (hls : ∀ l ∈ ls, ∀ c ∈ l.code, P c) (h : entries source ls = .ok es) :
    ∀ e ∈ es, e.MadeOf P := by
  have hstart : Cutting.start.MadeOf P :=
    ⟨by simp [Cutting.start], by simp [Cutting.start], by simp [Cutting.start]⟩
  simp only [entries] at h
  cases hcut : ls.foldlM (Cutting.takeLine source) Cutting.start with
  | error e => simp [hcut, bind, Except.bind] at h
  | ok k =>
    have hk := hstart.takeLines hls hcut
    simp only [hcut, bind, Except.bind] at h
    split at h
    · exact Except.ok.inj h ▸ hk.entries
    · simp at h

/-- The text of an entry has a space between its stretches. -/
theorem mem_entryText {e : Entry} (he : e.MadeOf P) : ∀ c ∈ e.text, P c ∨ c = ' ' := by
  intro c hc
  rcases mem_of_mem_intercalate hc with hc | ⟨part, hpart, hc⟩
  · exact .inr (List.mem_singleton.mp hc)
  · obtain ⟨stretch, hstretch, rfl⟩ := List.mem_map.mp (List.mem_filter.mp hpart).1
    exact .inl (he stretch hstretch c (mem_of_mem_trim hc))

end Cut

/-! ## The fields -/

/-- The rest of a text behind a question mark. -/
theorem dropMark_suffix (cs : List Char) : (dropMark cs).2 <:+ cs := by
  unfold dropMark
  split
  · exact List.suffix_cons _ _
  · exact List.suffix_rfl

/-- An entry's name is an identifier, and its type stands in the entry. -/
theorem splitEntry?_characters {text : List Char} {parts : EntryParts}
    (h : splitEntry? text = some parts) :
    isIdentifier parts.name = true ∧ ∀ c ∈ parts.typeText, c ∈ text := by
  unfold splitEntry? at h
  split at h
  · simp at h
  rename_i c rest
  split at h
  · rename_i hstart
    simp only at h
    split at h
    · rename_i rest' hcolon
      obtain rfl := Option.some.inj h
      refine ⟨?_, fun d hd => List.mem_cons_of_mem c ?_⟩
      · simp [isIdentifier, hstart]
      · -- the type is the end of what follows the name, its mark and the colon
        have hd' : d ∈ ':' :: rest' := List.mem_cons_of_mem _ (mem_of_mem_trim hd)
        have hmark := (List.dropWhile_suffix isBlank).subset (hcolon ▸ hd')
        exact (List.dropWhile_suffix _).subset ((dropMark_suffix _).subset hmark)
    · simp at h
  · simp at h

/-- The first entry has to be a new field, and the others have to be fields
too. -/
theorem fieldsOf_cons_eq_ok {source : String} {earlier : List (String × Nat)} {e : Entry}
    {es : List Entry} {fields : List Field}
    (h : fieldsOf source earlier (e :: es) = .ok fields) :
    ∃ parts rest, splitEntry? e.text = some parts ∧ parts.typeText ≠ [] ∧
      firstLine? (String.ofList parts.name) earlier = none ∧
      fieldsOf source (earlier ++ [(String.ofList parts.name, e.number)]) es = .ok rest ∧
      fields = ⟨String.ofList parts.name, parts.isOptional, String.ofList parts.typeText,
        some e.number⟩ :: rest := by
  simp only [fieldsOf] at h
  split at h
  · simp at h
  rename_i parts hparts
  split at h
  · simp at h
  rename_i htype
  split at h
  · simp at h
  rename_i hfirst
  cases hrest : fieldsOf source (earlier ++ [(String.ofList parts.name, e.number)]) es with
  | error err => simp [hrest, Except.map] at h
  | ok rest =>
    obtain rfl : _ = fields := by simpa only [hrest, Except.map, Except.ok.injEq] using h
    exact ⟨parts, rest, hparts, htype, hfirst, hrest, rfl⟩

theorem fieldsOf_characters {P : Char → Prop} {source : String} {earlier : List (String × Nat)}
    {es : List Entry} {fields : List Field} (hes : ∀ e ∈ es, e.MadeOf P)
    (h : fieldsOf source earlier es = .ok fields) :
    ∀ f ∈ fields, isIdentifier f.name.toList = true ∧
      ∀ c ∈ f.typeText.toList, P c ∨ c = ' ' := by
  induction es generalizing earlier fields with
  | nil =>
    obtain rfl := Except.ok.inj h
    simp
  | cons e es ih =>
    rw [List.forall_mem_cons] at hes
    obtain ⟨parts, rest, hparts, -, -, hrest, rfl⟩ := fieldsOf_cons_eq_ok h
    obtain ⟨hname, htype⟩ := splitEntry?_characters hparts
    refine List.forall_mem_cons.mpr ⟨?_, ih hes.2 hrest⟩
    rw [String.toList_ofList, String.toList_ofList]
    exact ⟨hname, fun c hc => mem_entryText hes.1 c (htype c hc)⟩

/-- What is read off a text goes through all three stages. -/
theorem parse_eq_ok {text source : String} {p : Payload} (h : Payload.parse text source = .ok p) :
    ∃ body firstLine es, declaredBody source text.toList = .ok (body, firstLine) ∧
      entries source (codeLines body firstLine) = .ok es ∧
      fieldsOf source [] es = .ok p.fields := by
  simp only [Payload.parse] at h
  cases hbody : declaredBody source text.toList with
  | error e => simp [hbody, bind, Except.bind] at h
  | ok found =>
    obtain ⟨body, firstLine⟩ := found
    cases hentries : entries source (codeLines body firstLine) with
    | error e => simp [hbody, hentries, bind, Except.bind] at h
    | ok es =>
      cases hfields : fieldsOf source [] es with
      | error e => simp [hbody, hentries, hfields, bind, Except.bind] at h
      | ok fields =>
        simp only [hbody, hentries, hfields, bind, Except.bind, pure, Except.pure,
          Except.ok.injEq] at h
        obtain rfl := h
        exact ⟨body, firstLine, es, rfl, hentries, hfields⟩

/-- **The characters of parsed fields.** The name of a field is an identifier;
the characters of its type stand in the text or are spaces, and none is a line
feed. -/
theorem parse_characters {text source : String} {p : Payload}
    (h : Payload.parse text source = .ok p) :
    ∀ f ∈ p.fields, isIdentifier f.name.toList = true ∧
      ∀ c ∈ f.typeText.toList, (c ∈ text.toList ∨ c = ' ') ∧ c ≠ '\n' := by
  obtain ⟨body, firstLine, es, hbody, hentries, hfields⟩ := parse_eq_ok h
  have hmade := madeOf_entries (fun _ hl => mem_of_mem_code hl) hentries
  intro f hf
  obtain ⟨hname, htype⟩ := fieldsOf_characters hmade hfields f hf
  refine ⟨hname, fun c hc => ?_⟩
  rcases htype c hc with ⟨hin, hfeed⟩ | rfl
  · exact ⟨.inl (mem_of_mem_declaredBody hbody c hin), hfeed⟩
  · exact ⟨.inr rfl, by decide⟩

end Stencil.Payload
