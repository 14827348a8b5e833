import Stencil.Payload.Schema
import Stencil.Proofs.Identifier
import Stencil.Proofs.Payload.Head
import Stencil.Proofs.Text.Blank
import Stencil.Proofs.Text.Pieces

/-!
# Stencil — the schema of a union

A union is written as its members with ` | ` between them. A member is a string
literal, a name, or an array of a name in one of its two spellings. Its schema is
read off the text of the whole union: first the text is tried as an array type,
then it is cut at every bar.

Both look at the text only, so that the members are not always found:

* the end `[]` of the last member is taken for the end of the whole type, and so
  are the `Array<` of the first member and the `>` of the last one;
* a bar inside a literal cuts the literal in two.

Main results:

* `unionValues?_unionText` — which values the cutting finds;
* `ofType_unionText` — the schema of a union, by its members;
* `schema_union` — the schema expression of a field of such a type.
-/

namespace Stencil.Payload

open Stencil.Text

/-- A member of a union. -/
inductive UnionMember where
  | literal (quote : Char) (value : List Char)
  /-- A primitive type or any other name. -/
  | name (type : List Char)
  /-- `T[]`. -/
  | suffixed (item : List Char)
  /-- `Array<T>`. -/
  | generic (item : List Char)
  deriving DecidableEq, Repr

namespace UnionMember

/-- How a member is written. -/
def text : UnionMember → List Char
  | literal quote value => quote :: (value ++ [quote])
  | name type => type
  | suffixed item => item ++ ['[', ']']
  | generic item => "Array<".toList ++ (item ++ ['>'])

@[simp] theorem text_literal (quote : Char) (value : List Char) :
    (literal quote value).text = quote :: (value ++ [quote]) :=
  rfl

@[simp] theorem text_name (type : List Char) : (name type).text = type :=
  rfl

@[simp] theorem text_suffixed (item : List Char) : (suffixed item).text = item ++ ['[', ']'] :=
  rfl

@[simp] theorem text_generic (item : List Char) :
    (generic item).text = "Array<".toList ++ (item ++ ['>']) :=
  rfl

/-- A literal holds no quote and stands on one line; every name is an identifier. -/
def IsWellFormed : UnionMember → Prop
  | literal quote value =>
    (quote = '\'' ∨ quote = '"') ∧ ∀ c ∈ value, c ≠ '\'' ∧ c ≠ '"' ∧ c ≠ '\n'
  | name type => isIdentifier type = true
  | suffixed item => isIdentifier item = true
  | generic item => isIdentifier item = true

def isLiteral : UnionMember → Bool
  | literal _ _ => true
  | _ => false

def isSuffixed : UnionMember → Bool
  | suffixed _ => true
  | _ => false

def isGeneric : UnionMember → Bool
  | generic _ => true
  | _ => false

/-- The value that a member adds to a choice: that of a literal which is not cut. -/
def choice? : UnionMember → Option (List Char)
  | literal _ value => if '|' ∈ value then none else some value
  | _ => none

end UnionMember

/-- The text of a union. -/
def unionText (members : List UnionMember) : List Char :=
  " | ".toList.intercalate (members.map UnionMember.text)

/-- Whether a union is taken for an array: its last member ends like one, or its
first member starts and its last member ends like one. -/
def readsAsArray (members : List UnionMember) : Bool :=
  members.getLast?.any UnionMember.isSuffixed ||
    (members.head?.any UnionMember.isGeneric && members.getLast?.any UnionMember.isGeneric)

variable {m last : UnionMember} {ms : List UnionMember} {c : Char} {cs front back : List Char}

/-! ## The text of a member -/

namespace UnionMember

theorem exists_of_isLiteral (h : m.isLiteral = true) : ∃ quote value, m = literal quote value := by
  cases m with
  | literal quote value => exact ⟨quote, value, rfl⟩
  | name _ | suffixed _ | generic _ => simp [isLiteral] at h

theorem exists_of_isSuffixed (h : m.isSuffixed = true) : ∃ item, m = suffixed item := by
  cases m with
  | suffixed item => exact ⟨item, rfl⟩
  | literal _ _ | name _ | generic _ => simp [isSuffixed] at h

theorem exists_of_isGeneric (h : m.isGeneric = true) : ∃ item, m = generic item := by
  cases m with
  | generic item => exact ⟨item, rfl⟩
  | literal _ _ | name _ | suffixed _ => simp [isGeneric] at h

theorem choice?_of_not_literal (h : m.isLiteral = false) : m.choice? = none := by
  cases m with
  | literal quote value => simp [isLiteral] at h
  | name _ | suffixed _ | generic _ => rfl

/-- The first character of a member is no blank and no brace, and a quote only of
a literal. -/
theorem exists_text_cons (h : m.IsWellFormed) : ∃ c rest, m.text = c :: rest ∧
    isBlank c = false ∧ c ≠ '\x7b' ∧ (m.isLiteral = false → c ≠ '\'' ∧ c ≠ '"') := by
  have hnamed : ∀ {type : List Char} (rest' : List Char), isIdentifier type = true → ∃ c rest,
      type ++ rest' = c :: rest ∧ isBlank c = false ∧ c ≠ '\x7b' ∧ c ≠ '\'' ∧ c ≠ '"' := by
    intro type rest' htype
    obtain ⟨c, rest, rfl, hc⟩ := exists_cons_of_isIdentifier htype
    exact ⟨c, rest ++ rest', rfl, isBlank_of_isIdentifierPart hc,
      ne_of_isIdentifierPart hc (by decide), ne_of_isIdentifierPart hc (by decide),
      ne_of_isIdentifierPart hc (by decide)⟩
  cases m with
  | literal quote value =>
    refine ⟨quote, value ++ [quote], rfl, ?_⟩
    rcases h.1 with rfl | rfl
    · exact ⟨by decide, by decide, by simp [isLiteral]⟩
    · exact ⟨by decide, by decide, by simp [isLiteral]⟩
  | name type =>
    obtain ⟨c, rest, hcs, hblank, hbrace, hquotes⟩ := hnamed [] h
    exact ⟨c, rest, by rw [← hcs, List.append_nil]; rfl, hblank, hbrace, fun _ => hquotes⟩
  | suffixed item =>
    obtain ⟨c, rest, hcs, hblank, hbrace, hquotes⟩ := hnamed _ h
    exact ⟨c, rest, hcs, hblank, hbrace, fun _ => hquotes⟩
  | generic item =>
    exact ⟨'A', "rray<".toList ++ (item ++ ['>']), rfl, by decide, by decide, fun _ => by decide⟩

/-- Its last character is no blank, and closes an array only if the member is
one. -/
theorem exists_text_concat (h : m.IsWellFormed) : ∃ init c, m.text = init ++ [c] ∧
    isBlank c = false ∧ (m.isSuffixed = false → c ≠ ']') ∧ (m.isGeneric = false → c ≠ '>') := by
  cases m with
  | literal quote value =>
    refine ⟨quote :: value, quote, rfl, ?_⟩
    rcases h.1 with rfl | rfl
    · exact ⟨by decide, fun _ => by decide, fun _ => by decide⟩
    · exact ⟨by decide, fun _ => by decide, fun _ => by decide⟩
  | name type =>
    obtain ⟨init, c, rfl, hc⟩ := exists_concat_of_isIdentifier h
    exact ⟨init, c, rfl, isBlank_of_isIdentifierPart hc,
      fun _ => ne_of_isIdentifierPart hc (by decide),
      fun _ => ne_of_isIdentifierPart hc (by decide)⟩
  | suffixed item =>
    exact ⟨item ++ ['['], ']', by simp, by decide, by simp [isSuffixed],
      fun _ => by decide⟩
  | generic item =>
    exact ⟨"Array<".toList ++ item, '>', by simp, by decide, fun _ => by decide,
      by simp [isGeneric]⟩

theorem notMem_text (h : m.IsWellFormed) : '\n' ∉ m.text := by
  cases m with
  | literal quote value =>
    have hquote : '\n' ≠ quote := by
      rcases h.1 with rfl | rfl <;> decide
    have hvalue : '\n' ∉ value := fun hmem => (h.2 _ hmem).2.2 rfl
    simp [hquote, hvalue]
  | name type => exact notMem_of_isIdentifier h (by decide)
  | suffixed item => simp [notMem_of_isIdentifier (c := '\n') h (by decide)]
  | generic item => simp [notMem_of_isIdentifier (c := '\n') h (by decide)]

/-- Only a literal can hold a bar. -/
theorem bar_notMem_text (h : m.IsWellFormed) (hliteral : m.isLiteral = false) :
    '|' ∉ m.text := by
  cases m with
  | literal quote value => simp [isLiteral] at hliteral
  | name type => exact notMem_of_isIdentifier h (by decide)
  | suffixed item => simp [notMem_of_isIdentifier (c := '|') h (by decide)]
  | generic item => simp [notMem_of_isIdentifier (c := '|') h (by decide)]

end UnionMember

/-! ## The text of a union -/

theorem unionText_cons (m : UnionMember) (hms : ms ≠ []) :
    unionText (m :: ms) = m.text ++ (' ' :: '|' :: ' ' :: unionText ms) := by
  rw [unionText, List.map_cons, List.intercalate_cons_of_ne_nil (by simpa using hms)]
  simp [unionText]

/-- What stands before the last member does not depend on it. -/
theorem exists_unionText_concat (ms : List UnionMember) :
    ∃ front, ∀ last, unionText (ms ++ [last]) = front ++ last.text := by
  induction ms with
  | nil => exact ⟨[], fun last => by simp [unionText]⟩
  | cons m ms ih =>
    obtain ⟨front, hfront⟩ := ih
    refine ⟨m.text ++ (' ' :: '|' :: ' ' :: front), fun last => ?_⟩
    rw [List.cons_append, unionText_cons m (by simp), hfront last]
    simp

theorem notMem_unionText (h : ∀ m ∈ ms, m.IsWellFormed) : '\n' ∉ unionText ms := by
  intro hmem
  rcases mem_of_mem_intercalate hmem with hsep | ⟨part, hpart, hc⟩
  · exact absurd hsep (by decide)
  · obtain ⟨m, hm, rfl⟩ := List.mem_map.mp hpart
    exact UnionMember.notMem_text (h m hm) hc

/-! ## Cutting at the bars -/

/-- A literal starts with a quote. -/
theorem literalValue?_eq_none (hc : c ≠ '\'' ∧ c ≠ '"') : literalValue? (c :: cs) = none := by
  rw [literalValue?, if_neg]
  rintro (rfl | rfl)
  · exact hc.1 rfl
  · exact hc.2 rfl

theorem literalValue?_literal {quote : Char} {value : List Char}
    (h : (UnionMember.literal quote value).IsWellFormed) :
    literalValue? (UnionMember.literal quote value).text = some value := by
  have hvalue : value.all (fun c => c ≠ '\'' ∧ c ≠ '"') = true := by
    simpa using fun c hc => ⟨(h.2 c hc).1, (h.2 c hc).2.1⟩
  rw [UnionMember.text_literal, literalValue?, if_pos h.1, if_pos]
  · rw [List.dropLast_concat]
  · rw [List.getLast?_concat, List.dropLast_concat]
    exact ⟨rfl, hvalue⟩

/-- A literal that is cut does not end with its quote. -/
theorem literalValue?_cut {quote : Char} {value : List Char} (hquote : quote = '\'' ∨ quote = '"')
    (hvalue : ∀ c ∈ value, c ≠ '\'' ∧ c ≠ '"') : literalValue? (quote :: value) = none := by
  rw [literalValue?, if_pos hquote, if_neg]
  rintro ⟨hlast, -⟩
  have hmem := hvalue quote (List.mem_of_getLast? hlast)
  rcases hquote with rfl | rfl
  · exact hmem.1 rfl
  · exact hmem.2 rfl

theorem unionValues?_of_notMem (h : '|' ∉ cs) :
    unionValues? cs = (literalValue? (trim cs)).map ([·]) := by
  rw [unionValues?, pieces_of_notMem h, List.mapM_cons, List.mapM_nil]
  cases literalValue? (trim cs) <;> rfl

theorem unionValues?_bar (front back : List Char) :
    unionValues? (front ++ '|' :: back) = (do
      let values ← unionValues? front
      let others ← unionValues? back
      pure (values ++ others)) := by
  rw [unionValues?, pieces_append_sep_append, List.mapM_append, unionValues?, unionValues?]

/-- A member between blanks gives its value to the choice. -/
theorem unionValues?_member (h : m.IsWellFormed) (hfront : ∀ c ∈ front, isBlank c = true)
    (hback : ∀ c ∈ back, isBlank c = true) :
    unionValues? (front ++ (m.text ++ back)) = m.choice?.map ([·]) := by
  have hfree : ∀ {blanks : List Char}, (∀ c ∈ blanks, isBlank c = true) → '|' ∉ blanks :=
    fun hblank hmem => absurd (hblank _ hmem) (by decide)
  -- between bars, a member is found by trimming
  have htrim : trim (front ++ (m.text ++ back)) = m.text := by
    rw [trim, trimWhere_append_left hfront, trimWhere_append_right hback]
    apply trimWhere_eq_self
    · obtain ⟨c, rest, hcs, hblank, -⟩ := UnionMember.exists_text_cons h
      simp [hcs, hblank]
    · obtain ⟨init, c, hcs, hblank, -⟩ := UnionMember.exists_text_concat h
      simp [hcs, hblank]
  by_cases hliteral : m.isLiteral = false
  · -- it holds no bar, and it is no literal
    have hbar : '|' ∉ front ++ (m.text ++ back) := by
      simp [hfree hfront, hfree hback, UnionMember.bar_notMem_text h hliteral]
    obtain ⟨c, rest, hcs, -, -, hquotes⟩ := UnionMember.exists_text_cons h
    rw [unionValues?_of_notMem hbar, htrim, UnionMember.choice?_of_not_literal hliteral, hcs,
      literalValue?_eq_none (hquotes hliteral)]
  · rw [Bool.not_eq_false] at hliteral
    obtain ⟨quote, value, rfl⟩ := UnionMember.exists_of_isLiteral hliteral
    have hquote : '|' ≠ quote ∧ isBlank quote = false := by
      rcases h.1 with rfl | rfl <;> decide
    by_cases hvalue : '|' ∈ value
    · -- the first piece is a literal that does not end
      obtain ⟨p, hp, hcut⟩ := exists_firstPiece '|' value
      obtain ⟨rest, rfl⟩ := hcut.resolve_left (by rintro rfl; exact hp hvalue)
      have hfirst : unionValues? (front ++ quote :: p) = none := by
        have hbar : '|' ∉ front ++ quote :: p := by simp [hfree hfront, hquote.1, hp]
        rw [unionValues?_of_notMem hbar, trim, trimWhere_append_left hfront,
          trimWhere_cons hquote.2, literalValue?_cut h.1]
        · rfl
        · intro c hc
          have hmem : c ∈ p := by
            rw [dropEndWhile, List.mem_reverse] at hc
            exact List.mem_reverse.mp ((List.dropWhile_sublist _).subset hc)
          exact ⟨(h.2 c (by simp [hmem])).1, (h.2 c (by simp [hmem])).2.1⟩
      have hsplit : front ++ ((UnionMember.literal quote (p ++ '|' :: rest)).text ++ back) =
          (front ++ quote :: p) ++ '|' :: (rest ++ quote :: back) := by
        simp
      rw [hsplit, unionValues?_bar, hfirst, UnionMember.choice?, if_pos hvalue]
      rfl
    · have hbar : '|' ∉ front ++ ((UnionMember.literal quote value).text ++ back) := by
        simp [hfree hfront, hfree hback, hquote.1, hvalue]
      rw [unionValues?_of_notMem hbar, htrim, literalValue?_literal h, UnionMember.choice?,
        if_neg hvalue]

/-- **What the cutting finds** are the values of the members, if each is a literal
that is not cut itself. -/
theorem unionValues?_unionText (hms : ms ≠ []) (h : ∀ m ∈ ms, m.IsWellFormed) :
    unionValues? (unionText ms) = ms.mapM UnionMember.choice? := by
  -- on the members; each of the others has a blank before it
  suffices hgap : ∀ front : List Char, (∀ c ∈ front, isBlank c = true) →
      unionValues? (front ++ unionText ms) = ms.mapM UnionMember.choice? by
    simpa using hgap [] (by simp)
  induction ms with
  | nil => exact absurd rfl hms
  | cons m ms ih =>
    intro front hfront
    have hm := h m (by simp)
    by_cases hrest : ms = []
    · have hmember : unionValues? (front ++ (m.text ++ [])) = m.choice?.map ([·]) :=
        unionValues?_member hm hfront (by simp)
      rw [List.append_nil] at hmember
      rw [hrest, List.mapM_cons, List.mapM_nil, unionText, List.map_singleton,
        List.intercalate_singleton, hmember]
      cases m.choice? <;> rfl
    · have hblank : ∀ c ∈ [' '], isBlank c = true := by
        intro c hc
        obtain rfl := List.mem_singleton.mp hc
        decide
      have hothers := ih hrest (fun m' hm' => h m' (List.mem_cons_of_mem m hm')) [' '] hblank
      have hmember := unionValues?_member hm hfront hblank
      have hsplit : front ++ unionText (m :: ms) =
          (front ++ (m.text ++ [' '])) ++ '|' :: ([' '] ++ unionText ms) := by
        simp [unionText_cons m hrest]
      rw [hsplit, unionValues?_bar, hmember, hothers, List.mapM_cons]
      cases m.choice? <;> rfl

/-! ## Taken for an array -/

section Ends

variable {ending item : List Char} {d : Char}

theorem beforeEnd?_append (hne : item ≠ []) (hline : '\n' ∉ item) :
    beforeEnd? ending (item ++ ending) = some item := by
  rw [beforeEnd?, if_pos (List.isSuffixOf_iff_suffix.mpr (List.suffix_append item ending)),
    List.length_append, Nat.add_sub_cancel, List.take_left, onOneLine?, if_pos ⟨hne, hline⟩]

/-- What is found before an end is the text before it. -/
theorem beforeEnd?_eq_some (h : beforeEnd? ending cs = some item) :
    cs = item ++ ending ∧ item ≠ [] := by
  rw [beforeEnd?] at h
  split at h
  · rename_i hsuffix
    obtain ⟨front, rfl⟩ := List.isSuffixOf_iff_suffix.mp hsuffix
    rw [List.length_append, Nat.add_sub_cancel, List.take_left, onOneLine?] at h
    split at h
    · rename_i hfront
      obtain rfl := Option.some.inj h
      exact ⟨rfl, hfront.1⟩
    · simp at h
  · simp at h

theorem beforeEnd?_eq_none (ending : List Char) (hcd : c ≠ d) :
    beforeEnd? (ending ++ [d]) (cs ++ [c]) = none := by
  rw [beforeEnd?, if_neg]
  intro hsuffix
  obtain ⟨front, hfront⟩ := List.isSuffixOf_iff_suffix.mp hsuffix
  rw [← List.append_assoc] at hfront
  have hlast := (List.append_inj' hfront rfl).2
  exact hcd (List.cons.inj hlast).1.symm

/-- A text that starts as no array of this spelling does. -/
theorem dropWord_eq_none {word : String} (hin : d ∈ front) (hd : d ∉ word.toList)
    (hc : c ∈ word.toList) (hout : c ∉ front) : dropWord word (front ++ back) = none := by
  rw [dropWord, if_neg]
  intro hprefix
  rw [List.isPrefixOf_iff_prefix] at hprefix
  -- the one that is shorter is the beginning of the other
  rcases List.prefix_or_prefix_of_prefix hprefix (List.prefix_append front back) with hle | hle
  · exact hout (hle.subset hc)
  · exact hd (hle.subset hin)

theorem suffixItem?_concat (hc : c ≠ ']') : suffixItem? (cs ++ [c]) = none :=
  beforeEnd?_eq_none ['['] hc

theorem genericItem?_concat (hc : c ≠ '>') : genericItem? (cs ++ [c]) = none := by
  rw [genericItem?, Option.bind_eq_none_iff]
  intro rest hrest
  -- the last character is still the last one behind the word
  obtain rfl | ⟨init, d, rfl⟩ := rest.eq_nil_or_concat
  · rfl
  · rw [List.concat_eq_append] at hrest ⊢
    obtain ⟨before, hbefore⟩ := dropWord_suffix hrest
    rw [← List.append_assoc] at hbefore
    have hlast := (List.append_inj' hbefore rfl).2
    rw [(List.cons.inj hlast).1]
    exact beforeEnd?_eq_none [] hc

end Ends

section Spellings

variable {first : UnionMember} {a b item : List Char}

theorem suffixItem?_of_last (ms : List UnionMember) (hlast : last.IsWellFormed)
    (h : last.isSuffixed = false) :
    suffixItem? (unionText (ms ++ [last])) = none := by
  obtain ⟨front, hfront⟩ := exists_unionText_concat ms
  obtain ⟨init, c, hc, -, hclose, -⟩ := UnionMember.exists_text_concat hlast
  rw [hfront, hc, ← List.append_assoc]
  exact suffixItem?_concat (hclose h)

/-- Without its end, a union is one with a name for its last member. -/
theorem suffixItem?_suffixed (ms : List UnionMember)
    (h : ∀ m ∈ ms ++ [.suffixed item], m.IsWellFormed) :
    suffixItem? (unionText (ms ++ [.suffixed item])) = some (unionText (ms ++ [.name item])) := by
  obtain ⟨front, hfront⟩ := exists_unionText_concat ms
  have hitem : isIdentifier item = true := h (.suffixed item) (by simp)
  have hline : '\n' ∉ unionText (ms ++ [.name item]) := by
    refine notMem_unionText fun m hm => ?_
    rcases List.mem_append.mp hm with hm | hm
    · exact h m (List.mem_append_left _ hm)
    · obtain rfl := List.mem_singleton.mp hm
      exact hitem
  obtain ⟨c, rest, rfl, -⟩ := exists_cons_of_isIdentifier hitem
  rw [hfront] at hline
  have htext : front ++ (UnionMember.suffixed (c :: rest)).text =
      (front ++ (UnionMember.name (c :: rest)).text) ++ ['[', ']'] := by
    simp
  rw [hfront, hfront, htext, suffixItem?]
  exact beforeEnd?_append (by simp) hline

theorem genericItem?_of_last (ms : List UnionMember) (hlast : last.IsWellFormed)
    (h : last.isGeneric = false) :
    genericItem? (unionText (ms ++ [last])) = none := by
  obtain ⟨front, hfront⟩ := exists_unionText_concat ms
  obtain ⟨init, c, hc, -, -, hclose⟩ := UnionMember.exists_text_concat hlast
  rw [hfront, hc, ← List.append_assoc]
  exact genericItem?_concat (hclose h)

theorem genericItem?_of_first (hfirst : first.IsWellFormed) (h : first.isGeneric = false)
    (hms : ms ≠ []) : genericItem? (unionText (first :: ms)) = none := by
  -- a name goes on to the blank behind it
  have hname : ∀ {type : List Char}, isIdentifier type = true → ∀ {d : Char} {back : List Char},
      d ∉ "Array<".toList → d ≠ '<' → dropWord "Array<" (type ++ d :: back) = none := by
    intro type htype d back hd hne
    have hout : '<' ∉ type ++ [d] := by
      simp [notMem_of_isIdentifier (c := '<') htype (by decide), hne.symm]
    rw [List.append_cons]
    exact dropWord_eq_none (d := d) (by simp) hd (by decide) hout
  rw [unionText_cons first hms, genericItem?]
  cases first with
  | literal quote value =>
    have hquote : quote ∉ "Array<".toList ∧ '<' ∉ [quote] := by
      rcases hfirst.1 with rfl | rfl <;> decide
    have hdrop : dropWord "Array<" ([quote] ++ (value ++ [quote] ++
        (' ' :: '|' :: ' ' :: unionText ms))) = none :=
      dropWord_eq_none (List.mem_singleton_self quote) hquote.1 (by decide) hquote.2
    rw [UnionMember.text_literal, List.cons_append, ← List.singleton_append, hdrop]
    rfl
  | name type =>
    rw [UnionMember.text_name, hname hfirst (by decide) (by decide)]
    rfl
  | suffixed item =>
    rw [UnionMember.text_suffixed, List.append_assoc, List.cons_append,
      hname hfirst (by decide) (by decide)]
    rfl
  | generic item => simp [UnionMember.isGeneric] at h

/-- Without its ends, such a union starts and ends with an identifier. -/
theorem genericItem?_generic (ms : List UnionMember) (h : ∀ m ∈ ms, m.IsWellFormed)
    (ha : isIdentifier a = true) (hb : isIdentifier b = true) :
    ∃ mid, genericItem? (unionText (.generic a :: (ms ++ [.generic b]))) = some (a ++ mid ++ b) ∧
      '|' ∈ mid := by
  obtain ⟨front, hfront⟩ := exists_unionText_concat ms
  have hwell : ∀ m ∈ UnionMember.generic a :: (ms ++ [.generic b]), m.IsWellFormed := by
    simp only [List.mem_cons, List.mem_append, List.not_mem_nil, or_false]
    rintro m (rfl | hm | rfl)
    · exact ha
    · exact h m hm
    · exact hb
  have hline := notMem_unionText hwell
  have htext : unionText (.generic a :: (ms ++ [.generic b])) =
      "Array<".toList ++ (a ++ ('>' :: ' ' :: '|' :: ' ' :: (front ++ "Array<".toList)) ++ b ++
        ['>']) := by
    rw [unionText_cons _ (by simp), hfront]
    simp
  refine ⟨'>' :: ' ' :: '|' :: ' ' :: (front ++ "Array<".toList), ?_, by simp⟩
  rw [htext] at hline ⊢
  rw [genericItem?, dropWord, if_pos (List.isPrefixOf_iff_prefix.mpr (List.prefix_append _ _)),
    List.drop_left, Option.bind_some]
  refine beforeEnd?_append (by simp) fun hmem => hline ?_
  exact List.mem_append_right _ (List.mem_append_left _ hmem)

end Spellings

/-! ## The schema -/

section Reading

variable {type item : List Char} (htrimmed : trim type = type)
  (hprimitive : Schema.ofPrimitive? type = none) (hhead : type.head? ≠ some '\x7b')

include htrimmed hprimitive hhead

/-- An array type is read from the outside. -/
theorem ofType_of_arrayItem (hitem : arrayItem? type = some item) :
    Schema.ofType type = .array (Schema.ofType item) := by
  rw [Schema.ofType]
  simp only [htrimmed, hprimitive, if_neg hhead]
  split
  · rename_i found hfound
    rw [htrimmed, hitem] at hfound
    rw [Option.some.inj hfound]
  · rename_i hnone
    rw [htrimmed, hitem] at hnone
    simp at hnone

theorem ofType_of_no_item (hitem : arrayItem? type = none) :
    Schema.ofType type = Schema.ofUnion type := by
  rw [Schema.ofType]
  simp only [htrimmed, hprimitive, if_neg hhead]
  split
  · rename_i found hfound
    rw [htrimmed, hitem] at hfound
    simp at hfound
  · rfl

end Reading

/-- A text with a bar in it that opens no object type is read as a union, or as an
array if its ends say so. -/
structure IsCompound (type : List Char) : Prop where
  trimmed : trim type = type
  bar : '|' ∈ type
  head : type.head? ≠ some '\x7b'

namespace IsCompound

variable {type item : List Char}

theorem ofPrimitive?_eq_none (h : IsCompound type) : Schema.ofPrimitive? type = none := by
  have hne : ∀ word : String, '|' ∉ word.toList → type ≠ word.toList := by
    rintro word hword rfl
    exact hword h.bar
  rw [Schema.ofPrimitive?, if_neg (hne _ (by decide)), if_neg (hne _ (by decide)),
    if_neg (hne _ (by decide)), if_neg (hne _ (by decide))]

theorem ofType_array (h : IsCompound type) (hitem : arrayItem? type = some item) :
    Schema.ofType type = .array (Schema.ofType item) :=
  ofType_of_arrayItem h.trimmed h.ofPrimitive?_eq_none h.head hitem

theorem ofType_union (h : IsCompound type) (hitem : arrayItem? type = none) :
    Schema.ofType type = ((unionValues? type).map Schema.oneOf).getD .anything := by
  rw [ofType_of_no_item h.trimmed h.ofPrimitive?_eq_none h.head hitem, Schema.ofUnion,
    if_pos (by simpa using h.bar)]
  cases unionValues? type <;> rfl

end IsCompound

/-- A text is trimmed if neither of its ends is a blank. -/
theorem trim_of_ends {type init rest : List Char} {d : Char} (hcons : type = c :: rest)
    (hconcat : type = init ++ [d]) (hc : isBlank c = false) (hd : isBlank d = false) :
    trim type = type := by
  apply trimWhere_eq_self
  · simp [hcons, hc]
  · simp [hconcat, hd]

theorem isCompound_of_ends {type init rest : List Char} {d : Char} (hcons : type = c :: rest)
    (hconcat : type = init ++ [d]) (hc : isBlank c = false) (hd : isBlank d = false)
    (hbrace : c ≠ '\x7b') (hbar : '|' ∈ type) : IsCompound type where
  trimmed := trim_of_ends hcons hconcat hc hd
  bar := hbar
  head := by simp [hcons, hbrace]

theorem isCompound_unionText {first : UnionMember}
    (h : ∀ m ∈ first :: (ms ++ [last]), m.IsWellFormed) :
    IsCompound (unionText (first :: (ms ++ [last]))) := by
  obtain ⟨c, rest, hfirst, hc, hbrace, -⟩ :=
    UnionMember.exists_text_cons (h first (by simp))
  obtain ⟨init, d, hlast, hd, -⟩ := UnionMember.exists_text_concat (h last (by simp))
  obtain ⟨front, hfront⟩ := exists_unionText_concat (first :: ms)
  have hcons : unionText (first :: (ms ++ [last])) =
      first.text ++ (' ' :: '|' :: ' ' :: unionText (ms ++ [last])) :=
    unionText_cons first (by simp)
  have hconcat := hfront last
  rw [hfirst, List.cons_append] at hcons
  rw [hlast, ← List.append_assoc, List.cons_append] at hconcat
  exact isCompound_of_ends hcons hconcat hc hd hbrace (by simp [hcons])

theorem mapM_choice?_eq_none (hm : m ∈ ms) (hnone : m.choice? = none) :
    ms.mapM UnionMember.choice? = none := by
  induction ms with
  | nil => simp at hm
  | cons m' ms ih =>
    rw [List.mapM_cons]
    rcases List.mem_cons.mp hm with rfl | hm
    · rw [hnone]
      rfl
    · rw [ih hm]
      cases m'.choice? <;> rfl

/-- A union that is not taken for an array is the choice of its values, if all its
members have one. -/
theorem ofType_choice {first : UnionMember} (h : ∀ m ∈ first :: (ms ++ [last]), m.IsWellFormed)
    (hsuffixed : last.isSuffixed = false)
    (hgeneric : first.isGeneric = false ∨ last.isGeneric = false) :
    Schema.ofType (unionText (first :: (ms ++ [last]))) =
      (((first :: (ms ++ [last])).mapM UnionMember.choice?).map Schema.oneOf).getD .anything := by
  have hlast := h last (by simp)
  have hitem : arrayItem? (unionText (first :: (ms ++ [last]))) = none := by
    have hsuffix := suffixItem?_of_last (first :: ms) hlast hsuffixed
    rw [List.cons_append] at hsuffix
    rw [arrayItem?, hsuffix]
    rcases hgeneric with hgeneric | hgeneric
    · exact genericItem?_of_first (h first (by simp)) hgeneric (by simp)
    · exact genericItem?_of_last (first :: ms) hlast hgeneric
  rw [(isCompound_unionText h).ofType_union hitem, unionValues?_unionText (by simp) h]

/-- A union whose last member ends like an array: all before that is a union with
a name in it. -/
theorem ofType_suffixed {first : UnionMember} {item : List Char}
    (h : ∀ m ∈ first :: (ms ++ [.suffixed item]), m.IsWellFormed) :
    Schema.ofType (unionText (first :: (ms ++ [.suffixed item]))) = .array .anything := by
  have hsuffix : suffixItem? (unionText (first :: (ms ++ [.suffixed item]))) =
      some (unionText (first :: (ms ++ [.name item]))) :=
    suffixItem?_suffixed (first :: ms) h
  have hitem : arrayItem? (unionText (first :: (ms ++ [.suffixed item]))) =
      some (unionText (first :: (ms ++ [.name item]))) := by
    rw [arrayItem?, hsuffix]
  have hnamed : ∀ m ∈ first :: (ms ++ [.name item]), m.IsWellFormed := by
    intro m hm
    rw [← List.cons_append, List.mem_append, List.mem_singleton] at hm
    rcases hm with hm | rfl
    · exact h m (by rw [← List.cons_append]; exact List.mem_append_left _ hm)
    · exact h (.suffixed item) (by simp)
  have hname : .name item ∈ first :: (ms ++ [.name item]) := by simp
  have hnone := mapM_choice?_eq_none hname rfl
  rw [(isCompound_unionText h).ofType_array hitem, ofType_choice hnamed rfl (.inr rfl), hnone]
  rfl

/-- A union that starts and ends like an array of the other spelling: what is
between the brackets starts with a name. -/
theorem ofType_generic {a b : List Char}
    (h : ∀ m ∈ .generic a :: (ms ++ [.generic b]), m.IsWellFormed) :
    Schema.ofType (unionText (.generic a :: (ms ++ [.generic b]))) = .array .anything := by
  have ha : isIdentifier a = true := h (.generic a) (by simp)
  have hb : isIdentifier b = true := h (.generic b) (by simp)
  obtain ⟨mid, hgeneric, hbar⟩ :=
    genericItem?_generic ms (fun m hm => h m (by simp [hm])) ha hb
  have hsuffix : suffixItem? (unionText (.generic a :: (ms ++ [.generic b]))) = none :=
    suffixItem?_of_last (.generic a :: ms) (h (.generic b) (by simp)) rfl
  have hitem : arrayItem? (unionText (.generic a :: (ms ++ [.generic b]))) =
      some (a ++ mid ++ b) := by
    rw [arrayItem?, hsuffix, hgeneric]
  rw [(isCompound_unionText h).ofType_array hitem]
  congr 1
  -- the text between the brackets
  obtain ⟨c, rest, hc, hcpart⟩ := exists_cons_of_isIdentifier ha
  obtain ⟨init, d, hd, hdpart⟩ := exists_concat_of_isIdentifier hb
  have hcons : a ++ mid ++ b = c :: (rest ++ mid ++ b) := by simp [hc]
  have hconcat : a ++ mid ++ b = (a ++ mid ++ init) ++ [d] := by simp [hd]
  have hcompound : IsCompound (a ++ mid ++ b) :=
    isCompound_of_ends hcons hconcat (isBlank_of_isIdentifierPart hcpart)
      (isBlank_of_isIdentifierPart hdpart) (ne_of_isIdentifierPart hcpart (by decide))
      (by simp [hbar])
  have hinner : arrayItem? (a ++ mid ++ b) = none := by
    rw [hconcat, arrayItem?, suffixItem?_concat (ne_of_isIdentifierPart hdpart (by decide)),
      genericItem?_concat (ne_of_isIdentifierPart hdpart (by decide))]
  have hvalues : unionValues? (a ++ mid ++ b) = none := by
    obtain ⟨p, ps, hp⟩ := List.exists_cons_of_ne_nil (pieces_ne_nil '|' (rest ++ mid ++ b))
    have hbarc : c ≠ '|' := ne_of_isIdentifierPart hcpart (by decide)
    have hquotes : c ≠ '\'' ∧ c ≠ '"' :=
      ⟨ne_of_isIdentifierPart hcpart (by decide), ne_of_isIdentifierPart hcpart (by decide)⟩
    rw [hcons, unionValues?, pieces_cons hbarc hp, List.mapM_cons, trim,
      trimWhere_cons (isBlank_of_isIdentifierPart hcpart), literalValue?_eq_none hquotes]
    rfl
  rw [hcompound.ofType_union hinner, hvalues]
  rfl

/-- **The schema of a union**: an array of anything if the union is taken for an
array; otherwise the choice of its values if all members are literals that are not
cut, and anything if not. -/
theorem ofType_unionText (hlen : 2 ≤ ms.length) (h : ∀ m ∈ ms, m.IsWellFormed) :
    Schema.ofType (unionText ms) =
      if readsAsArray ms then .array .anything
      else ((ms.mapM UnionMember.choice?).map Schema.oneOf).getD .anything := by
  obtain ⟨first, mid, last, rfl⟩ : ∃ first mid last, ms = first :: (mid ++ [last]) := by
    cases ms with
    | nil => simp at hlen
    | cons first rest =>
      obtain rfl | ⟨mid, last, rfl⟩ := rest.eq_nil_or_concat
      · simp at hlen
      · exact ⟨first, mid, last, by rw [List.concat_eq_append]⟩
  have hreads : readsAsArray (first :: (mid ++ [last])) =
      (last.isSuffixed || (first.isGeneric && last.isGeneric)) := by
    rw [readsAsArray, ← List.cons_append, List.getLast?_concat]
    rfl
  rw [hreads]
  by_cases hsuffixed : last.isSuffixed = true
  · obtain ⟨item, rfl⟩ := UnionMember.exists_of_isSuffixed hsuffixed
    rw [hsuffixed, Bool.true_or, if_pos rfl]
    exact ofType_suffixed h
  · rw [Bool.not_eq_true] at hsuffixed
    rw [hsuffixed, Bool.false_or]
    by_cases hgeneric : (first.isGeneric && last.isGeneric) = true
    · rw [if_pos hgeneric]
      rw [Bool.and_eq_true] at hgeneric
      obtain ⟨a, rfl⟩ := UnionMember.exists_of_isGeneric hgeneric.1
      obtain ⟨b, rfl⟩ := UnionMember.exists_of_isGeneric hgeneric.2
      exact ofType_generic h
    · rw [if_neg hgeneric]
      rw [Bool.and_eq_true, not_and_or, Bool.not_eq_true, Bool.not_eq_true] at hgeneric
      exact ofType_choice h hsuffixed hgeneric

/-! ## The schema of a field -/

section Fields

variable {f : Field} {schema : Schema}

/-- A required field that is no plain text has the schema of its type. -/
theorem schema_of_ofType (hrequired : f.isOptional = false)
    (h : Schema.ofType f.typeText.toList = schema) (htext : schema ≠ .text) :
    f.schema = schema.render := by
  have hrefinement : f.refinement? = none := by
    rw [Field.refinement?, h, if_neg htext]
  rw [Field.schema, h, hrefinement, hrequired]
  simp

theorem render_oneOf (values : List (List Char)) :
    (Schema.oneOf values).render =
      "z.enum([".toList ++ [',', ' '].intercalate (values.map fun v => '\'' :: v ++ ['\'']) ++
        "])".toList :=
  rfl

theorem mapM_choice?_literals (literals : List (Char × List Char)) :
    (literals.map fun l => UnionMember.literal l.1 l.2).mapM UnionMember.choice? =
      if ∃ l ∈ literals, '|' ∈ l.2 then none else some (literals.map (·.2)) := by
  induction literals with
  | nil => rfl
  | cons l literals ih =>
    rw [List.map_cons, List.mapM_cons, ih, UnionMember.choice?]
    by_cases hvalue : '|' ∈ l.2
    · have hsome : ∃ l' ∈ l :: literals, '|' ∈ l'.2 := ⟨l, by simp, hvalue⟩
      rw [if_pos hvalue, if_pos hsome]
      rfl
    · rw [if_neg hvalue]
      by_cases hrest : ∃ l' ∈ literals, '|' ∈ l'.2
      · have hsome : ∃ l' ∈ l :: literals, '|' ∈ l'.2 :=
          hrest.imp fun l' hl' => ⟨List.mem_cons_of_mem l hl'.1, hl'.2⟩
        rw [if_pos hrest, if_pos hsome]
        rfl
      · have hnone : ¬ ∃ l' ∈ l :: literals, '|' ∈ l'.2 := by
          rintro ⟨l', hl', hbar⟩
          rcases List.mem_cons.mp hl' with rfl | hl'
          · exact hvalue hbar
          · exact hrest ⟨l', hl', hbar⟩
        rw [if_neg hrest, if_neg hnone]
        rfl

theorem readsAsArray_literals (literals : List (Char × List Char)) :
    readsAsArray (literals.map fun l => .literal l.1 l.2) = false := by
  have hlast : ∀ p : UnionMember → Bool, (∀ quote value, p (.literal quote value) = false) →
      ((literals.map fun l => UnionMember.literal l.1 l.2).getLast?.any p) = false := by
    intro p hp
    rw [List.getLast?_map]
    cases literals.getLast? with
    | none => rfl
    | some l => exact hp l.1 l.2
  rw [readsAsArray, hlast _ fun _ _ => rfl, hlast _ fun _ _ => rfl, Bool.and_false, Bool.or_false]

/-- **The schema expression of a union.** A union that is taken for an array is one
of anything; any other union accepts anything if a member of it is no literal. A
union of literals is the choice of their values, in order, unless one of them
holds a bar. -/
theorem schema_union (ms : List UnionMember) (hrequired : f.isOptional = false)
    (htype : f.typeText.toList = unionText ms) (hlen : 2 ≤ ms.length)
    (h : ∀ m ∈ ms, m.IsWellFormed) :
    (readsAsArray ms = true → f.schema = "z.array(z.any())".toList) ∧
      (readsAsArray ms = false → (∃ m ∈ ms, m.isLiteral = false) →
        f.schema = "z.any()".toList) ∧
      ∀ literals : List (Char × List Char), ms = literals.map (fun l => .literal l.1 l.2) →
        f.schema = if ∃ l ∈ literals, '|' ∈ l.2 then "z.any()".toList
          else "z.enum([".toList ++
            [',', ' '].intercalate (literals.map fun l => '\'' :: l.2 ++ ['\'']) ++
              "])".toList := by
  have hschema := ofType_unionText hlen h
  rw [← htype] at hschema
  refine ⟨fun hreads => ?_, fun hreads hmember => ?_, fun literals hliterals => ?_⟩
  · rw [hreads, if_pos rfl] at hschema
    rw [schema_of_ofType hrequired hschema (by simp)]
    rfl
  · obtain ⟨m, hm, hliteral⟩ := hmember
    rw [hreads, if_neg (by simp),
      mapM_choice?_eq_none hm (UnionMember.choice?_of_not_literal hliteral)] at hschema
    rw [schema_of_ofType hrequired hschema (by simp)]
    rfl
  · rw [hliterals, readsAsArray_literals, if_neg (by simp), mapM_choice?_literals] at hschema
    by_cases hbar : ∃ l ∈ literals, '|' ∈ l.2
    · rw [if_pos hbar] at hschema
      rw [if_pos hbar, schema_of_ofType hrequired hschema (by simp)]
      rfl
    · rw [if_neg hbar] at hschema
      rw [Option.map_some, Option.getD_some] at hschema
      rw [if_neg hbar, schema_of_ofType hrequired hschema (by simp), render_oneOf, List.map_map]
      rfl

/-- A choice of three, and three unions whose members are not found. -/
theorem schema_union_values :
    (⟨"a", false, "'x' | \"y z\" | ''", none⟩ : Field).schema =
        "z.enum(['x', 'y z', ''])".toList ∧
      (⟨"a", false, "'x' | Date | string[] | b", none⟩ : Field).schema = "z.any()".toList ∧
      (⟨"a", false, "string | number[]", none⟩ : Field).schema = "z.array(z.any())".toList ∧
      (⟨"a", false, "Array<a> | b | Array<c>", none⟩ : Field).schema =
        "z.array(z.any())".toList ∧
      (⟨"a", false, "'x|y' | 'z'", none⟩ : Field).schema = "z.any()".toList :=
  ⟨(schema_union
      [.literal '\'' ['x'], .literal '"' ['y', ' ', 'z'], .literal '\'' []]
      rfl (by decide) (by decide) (by simp [UnionMember.IsWellFormed])).2.2
      [('\'', ['x']), ('"', ['y', ' ', 'z']), ('\'', [])] rfl,
    (schema_union
      [.literal '\'' ['x'], .name "Date".toList, .suffixed "string".toList, .name ['b']]
      rfl (by decide) (by decide) (by simp [UnionMember.IsWellFormed]; decide)).2.1
      (by decide) (by decide),
    (schema_union [.name "string".toList, .suffixed "number".toList]
      rfl (by decide) (by decide) (by simp [UnionMember.IsWellFormed]; decide)).1 (by decide),
    (schema_union [.generic ['a'], .name ['b'], .generic ['c']]
      rfl (by decide) (by decide) (by simp [UnionMember.IsWellFormed]; decide)).1 (by decide),
    (schema_union [.literal '\'' ['x', '|', 'y'], .literal '\'' ['z']]
      rfl (by decide) (by decide) (by simp [UnionMember.IsWellFormed])).2.2
      [('\'', ['x', '|', 'y']), ('\'', ['z'])] rfl⟩

end Fields

end Stencil.Payload
