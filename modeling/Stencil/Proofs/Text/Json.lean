import Mathlib.Data.List.Forall2
import Stencil.Text.ControlSequence
import Stencil.Text.Json

/-!
# Stencil — the language of JSON

The grammar of JSON texts, as a relation between documents and characters. The text that
is handed out for a document is one of its texts, and printing it changes nothing.

Main results:

* `renderAt_writes`, `isText_render` — the text of a document is a JSON text for it;
* `IsText.first` — what a JSON text can begin with;
* `printed_render` — the text of a document is printed as it is.
-/

namespace Stencil.Json

open Stencil.Text

/-! ## Grammar -/

/-- Space between the parts of a text. -/
def IsSpace (cs : List Char) : Prop :=
  ∀ c ∈ cs, c = ' ' ∨ c = '\n' ∨ c = '\r' ∨ c = '\t'

/-- The value of a hexadecimal digit. -/
def hexValue? (c : Char) : Option Nat :=
  if '0' ≤ c ∧ c ≤ '9' then some (c.toNat - '0'.toNat)
  else if 'a' ≤ c ∧ c ≤ 'f' then some (c.toNat - 'a'.toNat + 10)
  else if 'A' ≤ c ∧ c ≤ 'F' then some (c.toNat - 'A'.toNat + 10)
  else none

/-- Hexadecimal digits and the number that they write. -/
inductive Hex : Nat → List Char → Prop
  | nil : Hex 0 []
  | snoc {n d cs c} (front : Hex n cs) (last : hexValue? c = some d) : Hex (16 * n + d) (cs ++ [c])

/-- The ways to write one character in a string: as it is, by a short escape, by its
code, or by two halves of a surrogate pair. -/
inductive Spells : Char → List Char → Prop
  | plain {c} (shown : 0x20 ≤ c.toNat) (quote : c ≠ '"') (backslash : c ≠ '\\') : Spells c [c]
  | short {c e} (h : (c, e) ∈
      [('"', '"'), ('\\', '\\'), ('/', '/'), ('\x08', 'b'), ('\x0c', 'f'), ('\n', 'n'), ('\r', 'r'),
        ('\t', 't')]) : Spells c ['\\', e]
  | code {c ds} (digits : Hex c.toNat ds) (length : ds.length = 4) : Spells c ('\\' :: 'u' :: ds)
  | pair {c ds es high low} (first : Hex (0xD800 + high) ds) (second : Hex (0xDC00 + low) es)
      (firstLength : ds.length = 4) (secondLength : es.length = 4)
      (value : c.toNat = 0x10000 + 0x400 * high + low) (bound : low < 0x400) :
      Spells c ('\\' :: 'u' :: ds ++ '\\' :: 'u' :: es)

/-- The ways to write the characters of a string. -/
inductive SpellsAll : List Char → List Char → Prop
  | nil : SpellsAll [] []
  | cons {c cs es fs} (first : Spells c es) (rest : SpellsAll cs fs) :
      SpellsAll (c :: cs) (es ++ fs)

/-- A string. -/
def IsString (s : String) (cs : List Char) : Prop :=
  ∃ es, SpellsAll s.toList es ∧ cs = '"' :: es ++ ['"']

/-- The digits of a natural number, without a zero in front. -/
structure IsNumeral (n : Nat) (cs : List Char) : Prop where
  nonempty : cs ≠ []
  digits : ∀ c ∈ cs, c.isDigit = true
  leading : cs.head? = some '0' → cs = ['0']
  value : Nat.ofDigitChars 10 cs 0 = n

mutual

/-- The texts of a document. -/
inductive Writes : Json → List Char → Prop
  | null : Writes .null ['n', 'u', 'l', 'l']
  | yes : Writes (.bool true) ['t', 'r', 'u', 'e']
  | no : Writes (.bool false) ['f', 'a', 'l', 's', 'e']
  | whole {n : Nat} {cs} (digits : IsNumeral n cs) : Writes (.int n) cs
  | negative {n : Nat} {cs} (digits : IsNumeral n cs) : Writes (.int (-n)) ('-' :: cs)
  | text {s cs} (string : IsString s cs) : Writes (.text s) cs
  | list {items cs} (inner : WritesItems items cs) : Writes (.list items) ('[' :: cs ++ [']'])
  | object {members cs} (inner : WritesMembers members cs) :
      Writes (.object members) ('\x7b' :: cs ++ ['\x7d'])

/-- The texts of the items of a list: space, or items between commas. -/
inductive WritesItems : List Json → List Char → Prop
  | none {space} (h : IsSpace space) : WritesItems [] space
  | one {j before cs behind} (front : IsSpace before) (value : Writes j cs)
      (back : IsSpace behind) : WritesItems [j] (before ++ cs ++ behind)
  | more {j next rest before cs behind more} (front : IsSpace before) (value : Writes j cs)
      (back : IsSpace behind) (others : WritesItems (next :: rest) more) :
      WritesItems (j :: next :: rest) (before ++ cs ++ behind ++ ',' :: more)

/-- The texts of a member: its name and its value. -/
inductive WritesMember : String × Json → List Char → Prop
  | pair {name j before key between between' cs behind} (front : IsSpace before)
      (string : IsString name key) (left : IsSpace between) (right : IsSpace between')
      (value : Writes j cs) (back : IsSpace behind) :
      WritesMember (name, j) (before ++ key ++ between ++ ':' :: between' ++ cs ++ behind)

/-- The texts of the members of an object: space, or members between commas. -/
inductive WritesMembers : List (String × Json) → List Char → Prop
  | none {space} (h : IsSpace space) : WritesMembers [] space
  | one {m cs} (member : WritesMember m cs) : WritesMembers [m] cs
  | more {m next rest cs more} (member : WritesMember m cs)
      (others : WritesMembers (next :: rest) more) :
      WritesMembers (m :: next :: rest) (cs ++ ',' :: more)

end

/-- A whole text for a document: one of its texts, with space around it. -/
def IsText (j : Json) (cs : List Char) : Prop :=
  ∃ before text behind, IsSpace before ∧ Writes j text ∧ IsSpace behind ∧
    cs = before ++ text ++ behind

/-! ## Numbers -/

theorem hexValue?_digitChar {d : Nat} (h : d < 16) : hexValue? d.digitChar = some d := by
  revert d
  decide

theorem hex_toDigits (n : Nat) : Hex n (Nat.toDigits 16 n) := by
  induction n using Nat.strongRecOn with
  | ind n ih =>
    rw [Nat.toDigits_eq_if (by decide)]
    have hlast : hexValue? (n % 16).digitChar = some (n % 16) :=
      hexValue?_digitChar (Nat.mod_lt n (by decide))
    split
    · rename_i hsmall
      have hdigit := Hex.snoc .nil hlast
      rw [Nat.mod_eq_of_lt hsmall] at hdigit
      simpa using hdigit
    · have hfront := ih (n / 16) (by omega)
      have hall := hfront.snoc hlast
      rwa [Nat.div_add_mod] at hall

/-- Zeros in front do not count. -/
theorem Hex.zeros {n : Nat} {cs : List Char} (h : Hex n cs) (k : Nat) :
    Hex n (List.replicate k '0' ++ cs) := by
  have hzeros : Hex 0 (List.replicate k '0') := by
    induction k with
    | zero => exact .nil
    | succ k ih =>
      rw [List.replicate_succ']
      exact ih.snoc (show hexValue? '0' = some 0 from rfl)
  induction h with
  | nil => rwa [List.append_nil]
  | snoc front last ih =>
    rw [← List.append_assoc]
    exact .snoc ih last

/-- A number whose digits fit is written with as many digits as there is room for. -/
theorem hex_hexDigits {width n : Nat} (h : (Nat.toDigits 16 n).length ≤ width) :
    Hex n (hexDigits width n) ∧ (hexDigits width n).length = width := by
  refine ⟨(hex_toDigits n).zeros _, ?_⟩
  rw [hexDigits, List.length_append, List.length_replicate]
  omega

theorem isNumeral_toDigits (n : Nat) : IsNumeral n (Nat.toDigits 10 n) where
  nonempty := Nat.toDigits_ne_nil
  digits c hc := Nat.isDigit_of_mem_toDigits (by decide) (by decide) hc
  value := Nat.ofDigitChars_ten_toDigits
  leading := by
    -- the first digit is that of a number below ten
    induction n using Nat.strongRecOn with
    | ind n ih =>
      rw [Nat.toDigits_eq_if (by decide)]
      split
      · intro hzero
        rw [List.head?_cons, Option.some.injEq] at hzero
        rw [hzero]
      · intro hzero
        rw [List.head?_append_of_ne_nil _ Nat.toDigits_ne_nil] at hzero
        have hvalue := Nat.ofDigitChars_ten_toDigits (n := n / 10)
        rw [ih (n / 10) (by omega) hzero] at hvalue
        have : n / 10 = 0 := hvalue.symm
        omega

theorem writes_int (n : Int) : Writes (.int n) (toString n).toList := by
  cases n with
  | ofNat n =>
    have htext : (toString (Int.ofNat n)).toList = Nat.toDigits 10 n := by
      exact String.toList_ofList
    rw [htext]
    exact .whole (isNumeral_toDigits n)
  | negSucc n =>
    have htext : (toString (Int.negSucc n)).toList = '-' :: Nat.toDigits 10 (n + 1) := by
      show ("-" ++ String.ofList (Nat.toDigits 10 (n + 1))).toList = _
      rw [String.toList_append, String.toList_ofList]
      simp
    rw [htext]
    exact .negative (isNumeral_toDigits (n + 1))

/-! ## Strings -/

/-- The digits of a unit. -/
theorem hex_unit {n : Nat} (h : n < 0x10000) :
    Hex n (hexDigits 4 n) ∧ (hexDigits 4 n).length = 4 :=
  hex_hexDigits ((Nat.length_toDigits_le_iff (by decide) (by decide)).mpr h)

/-- The halves of a surrogate pair. -/
theorem spells_pair {c : Char} {high low : Nat} (hvalue : c.toNat = 0x10000 + 0x400 * high + low)
    (hhigh : high < 0x400) (hlow : low < 0x400) :
    Spells c ([0xD800 + high, 0xDC00 + low].flatMap unitEscape) := by
  obtain ⟨hfirst, hfirstLength⟩ := hex_unit (show 0xD800 + high < 0x10000 by omega)
  obtain ⟨hsecond, hsecondLength⟩ := hex_unit (show 0xDC00 + low < 0x10000 by omega)
  have hpair := Spells.pair (c := c) hfirst hsecond hfirstLength hsecondLength hvalue hlow
  simpa [unitEscape] using hpair

/-- The code of a character: in one unit, or in a pair of them beyond the first
plane. -/
theorem spells_units (c : Char) : Spells c ((units c).flatMap unitEscape) := by
  have hvalid : c.toNat < 0xD800 ∨ 0xDFFF < c.toNat ∧ c.toNat < 0x110000 := c.valid
  rw [units]
  split
  · rename_i hsmall
    obtain ⟨hdigits, hlength⟩ := hex_unit hsmall
    simpa [unitEscape] using Spells.code hdigits hlength
  · rename_i hlarge
    exact spells_pair (by omega) (by omega) (by omega)

theorem spells_escapedChar (c : Char) : Spells c (escapedChar c) := by
  fun_cases escapedChar c with
  | case1 hmarks =>
    rcases hmarks with rfl | rfl
    · exact .short (by decide)
    · exact .short (by decide)
  | case7 hmarks _ _ _ _ _ hshown =>
    exact .plain hshown.1 (fun h => hmarks (.inl h)) fun h => hmarks (.inr h)
  | case8 => exact spells_units c
  | _ =>
    -- a character with a short escape of its own
    subst_vars
    exact .short (by decide)

theorem spellsAll_escaped (cs : List Char) : SpellsAll cs (cs.flatMap escapedChar) := by
  induction cs with
  | nil => exact .nil
  | cons c cs ih =>
    rw [List.flatMap_cons]
    exact .cons (spells_escapedChar c) ih

theorem isString_stringText (s : String) : IsString s (stringText s).toList :=
  ⟨_, spellsAll_escaped s.toList, by rw [stringText, String.toList_ofList]⟩

/-! ## Documents -/

theorem isSpace_nil : IsSpace [] := by
  simp [IsSpace]

theorem isSpace_newLine (level : Nat) : IsSpace (newLine level).toList := by
  intro c hc
  rw [newLine, String.toList_ofList, List.mem_cons] at hc
  rcases hc with rfl | hc
  · exact .inr (.inl rfl)
  · exact .inl (List.eq_of_mem_replicate hc)

theorem toList_bracketed_nil (opening closing : String) (level : Nat) :
    (bracketed opening closing level []).toList = opening.toList ++ closing.toList := by
  rw [bracketed, String.toList_append]

/-- Parts between brackets, as characters. -/
theorem toList_bracketed (opening closing : String) (level : Nat) {parts : List String}
    (h : parts ≠ []) :
    (bracketed opening closing level parts).toList =
      opening.toList ++ ((newLine (level + 1)).toList ++
        (',' :: (newLine (level + 1)).toList).intercalate (parts.map String.toList) ++
          (newLine level).toList) ++ closing.toList := by
  cases parts with
  | nil => exact absurd rfl h
  | cons first rest =>
    simp [bracketed, String.toList_append, String.toList_intercalate]

theorem writesItems_intercalate {items : List Json} {texts : List (List Char)}
    {front back : List Char} (hfront : IsSpace front) (hback : IsSpace back)
    (h : List.Forall₂ Writes items texts) (hsome : items ≠ []) :
    WritesItems items (front ++ (',' :: front).intercalate texts ++ back) := by
  induction h with
  | nil => exact absurd rfl hsome
  | @cons j text items texts hfirst hrest ih =>
    cases hrest with
    | nil => simpa using WritesItems.one hfront hfirst hback
    | @cons next _ _ _ _ hmore =>
      have hall := WritesItems.more hfront hfirst isSpace_nil (ih (by simp))
      simpa [List.intercalate_cons_cons] using hall

/-- A member as it is handed out, without space around it. -/
def IsPair (m : String × Json) (cs : List Char) : Prop :=
  ∃ key text, IsString m.1 key ∧ Writes m.2 text ∧ cs = key ++ [':', ' '] ++ text

theorem IsPair.writesMember {m : String × Json} {cs front back : List Char} (h : IsPair m cs)
    (hfront : IsSpace front) (hback : IsSpace back) : WritesMember m (front ++ cs ++ back) := by
  obtain ⟨key, text, hkey, hvalue, rfl⟩ := h
  have hblank : IsSpace [' '] := by simp [IsSpace]
  simpa using WritesMember.pair hfront hkey isSpace_nil hblank hvalue hback

theorem writesMembers_intercalate {members : List (String × Json)} {texts : List (List Char)}
    {front back : List Char} (hfront : IsSpace front) (hback : IsSpace back)
    (h : List.Forall₂ IsPair members texts) (hsome : members ≠ []) :
    WritesMembers members (front ++ (',' :: front).intercalate texts ++ back) := by
  induction h with
  | nil => exact absurd rfl hsome
  | @cons m text members texts hfirst hrest ih =>
    cases hrest with
    | nil => simpa using WritesMembers.one (hfirst.writesMember hfront hback)
    | @cons next _ _ _ _ hmore =>
      have hall := WritesMembers.more (hfirst.writesMember hfront isSpace_nil) (ih (by simp))
      simpa [List.intercalate_cons_cons] using hall

theorem ne_nil_of_forall₂ {α : Type} {r : α → List Char → Prop} {a : α} {as : List α}
    {parts : List String} (h : List.Forall₂ r (a :: as) (parts.map String.toList)) :
    parts ≠ [] := by
  rintro rfl
  exact absurd (List.forall₂_nil_right_iff.mp h) (by simp)

/-- Items between brackets, none or some. -/
theorem writes_bracketed_list {level : Nat} {items : List Json} {texts : List String}
    (h : List.Forall₂ Writes items (texts.map String.toList)) :
    Writes (.list items) (bracketed "[" "]" level texts).toList := by
  cases items with
  | nil =>
    obtain rfl := List.map_eq_nil_iff.mp (List.forall₂_nil_left_iff.mp h)
    rw [toList_bracketed_nil]
    exact .list (.none isSpace_nil)
  | cons j rest =>
    rw [toList_bracketed _ _ _ (ne_nil_of_forall₂ h)]
    exact .list (writesItems_intercalate (isSpace_newLine _) (isSpace_newLine _) h (by simp))

/-- Members between braces, none or some. -/
theorem writes_bracketed_object {level : Nat} {members : List (String × Json)}
    {texts : List String} (h : List.Forall₂ IsPair members (texts.map String.toList)) :
    Writes (.object members) (bracketed "\x7b" "\x7d" level texts).toList := by
  cases members with
  | nil =>
    obtain rfl := List.map_eq_nil_iff.mp (List.forall₂_nil_left_iff.mp h)
    rw [toList_bracketed_nil]
    exact .object (.none isSpace_nil)
  | cons m rest =>
    rw [toList_bracketed _ _ _ (ne_nil_of_forall₂ h)]
    exact .object (writesMembers_intercalate (isSpace_newLine _) (isSpace_newLine _) h (by simp))

mutual

/-- **The text of a document** at any level is one of its texts. -/
theorem renderAt_writes (level : Nat) : (j : Json) → Writes j (renderAt level j).toList
  | .null => by
    rw [renderAt]
    exact .null
  | .bool true => by
    rw [renderAt]
    exact .yes
  | .bool false => by
    rw [renderAt]
    exact .no
  | .int n => by
    rw [renderAt]
    exact writes_int n
  | .text s => by
    rw [renderAt]
    exact .text (isString_stringText s)
  | .list items => by
    have hparts := renderItems_writes (level + 1) items
    rw [renderAt]
    exact writes_bracketed_list hparts
  | .object members => by
    have hparts := renderMembers_writes (level + 1) members
    rw [renderAt]
    exact writes_bracketed_object hparts

theorem renderItems_writes (level : Nat) :
    (items : List Json) →
      List.Forall₂ Writes items ((renderItems level items).map String.toList)
  | [] => .nil
  | j :: rest => .cons (renderAt_writes level j) (renderItems_writes level rest)

theorem renderMembers_writes (level : Nat) :
    (members : List (String × Json)) →
      List.Forall₂ IsPair members ((renderMembers level members).map String.toList)
  | [] => .nil
  | (name, j) :: rest =>
    .cons ⟨_, _, isString_stringText name, renderAt_writes level j, by simp⟩
      (renderMembers_writes level rest)

end

/-- **What is handed out for a document** is a whole text for it. -/
theorem isText_render (j : Json) : IsText j (j.render ++ "\n").toList := by
  refine ⟨[], j.render.toList, ['\n'], isSpace_nil, renderAt_writes 0 j, ?_, ?_⟩
  · simp [IsSpace]
  · simp [String.toList_append]

/-! ## What a text begins with -/

/-- The characters that a text of a document can begin with. -/
def isFirst (c : Char) : Bool :=
  c.isDigit || "ntf\"[\x7b-".toList.contains c

theorem Writes.first {j : Json} {cs : List Char} (h : Writes j cs) :
    ∃ c rest, cs = c :: rest ∧ isFirst c = true := by
  cases h with
  | null => exact ⟨_, _, rfl, by decide⟩
  | yes => exact ⟨_, _, rfl, by decide⟩
  | no => exact ⟨_, _, rfl, by decide⟩
  | whole digits =>
    obtain ⟨c, rest, rfl⟩ := List.exists_cons_of_ne_nil digits.nonempty
    exact ⟨c, rest, rfl, by simp [isFirst, digits.digits c (by simp)]⟩
  | negative digits => exact ⟨_, _, rfl, by decide⟩
  | text string =>
    obtain ⟨es, -, rfl⟩ := string
    exact ⟨_, _, rfl, by decide⟩
  | list inner => exact ⟨_, _, rfl, by decide⟩
  | object inner => exact ⟨_, _, rfl, by decide⟩

/-- **A whole text** begins with space or with the first character of a document. -/
theorem IsText.first {j : Json} {c : Char} {cs : List Char} (h : IsText j (c :: cs)) :
    (c = ' ' ∨ c = '\n' ∨ c = '\r' ∨ c = '\t') ∨ isFirst c = true := by
  obtain ⟨before, text, behind, hbefore, hwrites, -, hall⟩ := h
  cases before with
  | cons b bs =>
    obtain ⟨rfl, -⟩ := List.cons.inj hall
    exact .inl (hbefore _ (by simp))
  | nil =>
    obtain ⟨d, rest, rfl, hd⟩ := hwrites.first
    obtain ⟨rfl, -⟩ := List.cons.inj hall
    exact .inr hd

/-! ## No text holds the escape character -/

/-- The character that begins a control sequence is not among these. -/
def NoEscape (cs : List Char) : Prop :=
  '\x1b' ∉ cs

theorem NoEscape.append {cs ds : List Char} (h : NoEscape cs) (h' : NoEscape ds) :
    NoEscape (cs ++ ds) := by
  rw [NoEscape, List.mem_append]
  exact not_or.mpr ⟨h, h'⟩

theorem NoEscape.cons {c : Char} {cs : List Char} (hc : c ≠ '\x1b') (h : NoEscape cs) :
    NoEscape (c :: cs) := by
  rw [NoEscape, List.mem_cons]
  exact not_or.mpr ⟨hc.symm, h⟩

theorem IsSpace.noEscape {cs : List Char} (h : IsSpace cs) : NoEscape cs := by
  intro hmem
  exact absurd (h _ hmem) (by decide)

theorem Hex.noEscape {n : Nat} {cs : List Char} (h : Hex n cs) : NoEscape cs := by
  induction h with
  | nil => simp [NoEscape]
  | @snoc n d cs c front last ih =>
    refine ih.append (.cons ?_ (by simp [NoEscape]))
    rintro rfl
    have hnone : hexValue? '\x1b' = none := by decide
    simp [hnone] at last

theorem Spells.noEscape {c : Char} {cs : List Char} (h : Spells c cs) : NoEscape cs := by
  cases h with
  | plain shown quote backslash =>
    refine .cons ?_ (by simp [NoEscape])
    rintro rfl
    exact absurd shown (by decide)
  | short h =>
    refine .cons (by decide) (.cons ?_ (by simp [NoEscape]))
    rintro rfl
    simp at h
  | code digits length => exact .cons (by decide) (.cons (by decide) digits.noEscape)
  | pair first second =>
    exact .append (.cons (by decide) (.cons (by decide) first.noEscape))
      (.cons (by decide) (.cons (by decide) second.noEscape))

theorem SpellsAll.noEscape {cs es : List Char} (h : SpellsAll cs es) : NoEscape es := by
  induction h with
  | nil => simp [NoEscape]
  | cons first rest ih => exact first.noEscape.append ih

theorem IsString.noEscape {s : String} {cs : List Char} (h : IsString s cs) : NoEscape cs := by
  obtain ⟨es, hes, rfl⟩ := h
  exact .append (.cons (by decide) hes.noEscape) (by simp [NoEscape])

theorem IsNumeral.noEscape {n : Nat} {cs : List Char} (h : IsNumeral n cs) : NoEscape cs := by
  intro hmem
  exact absurd (h.digits _ hmem) (by decide)

mutual

theorem Writes.noEscape {j : Json} {cs : List Char} : Writes j cs → NoEscape cs
  | .null => by simp [NoEscape]
  | .yes => by simp [NoEscape]
  | .no => by simp [NoEscape]
  | .whole digits => digits.noEscape
  | .negative digits => .cons (by decide) digits.noEscape
  | .text string => string.noEscape
  | .list inner => .append (.cons (by decide) inner.noEscape) (by simp [NoEscape])
  | .object inner => .append (.cons (by decide) inner.noEscape) (by simp [NoEscape])

theorem WritesItems.noEscape {items : List Json} {cs : List Char} :
    WritesItems items cs → NoEscape cs
  | .none h => h.noEscape
  | .one front value back => (front.noEscape.append value.noEscape).append back.noEscape
  | .more front value back others =>
    ((front.noEscape.append value.noEscape).append back.noEscape).append
      (.cons (by decide) others.noEscape)

theorem WritesMember.noEscape {m : String × Json} {cs : List Char} :
    WritesMember m cs → NoEscape cs
  | .pair front string left right value back =>
    ((((front.noEscape.append string.noEscape).append left.noEscape).append
      (.cons (by decide) right.noEscape)).append value.noEscape).append back.noEscape

theorem WritesMembers.noEscape {members : List (String × Json)} {cs : List Char} :
    WritesMembers members cs → NoEscape cs
  | .none h => h.noEscape
  | .one member => member.noEscape
  | .more member others => member.noEscape.append (.cons (by decide) others.noEscape)

end

/-- **A whole text** for a document has no control sequences. -/
theorem IsText.noEscape {j : Json} {cs : List Char} (h : IsText j cs) : NoEscape cs := by
  obtain ⟨before, text, behind, hbefore, hwrites, hbehind, rfl⟩ := h
  exact (hbefore.noEscape.append hwrites.noEscape).append hbehind.noEscape

end Stencil.Json

namespace Stencil.Text

theorem withoutControls_eq_self {cs : List Char} (h : Json.NoEscape cs) :
    withoutControls cs = cs := by
  induction cs with
  | nil => rw [withoutControls]
  | cons c cs ih =>
    have hc : c ≠ '\x1b' := fun hc => h (hc ▸ List.mem_cons_self)
    have hrest := ih fun hmem => h (List.mem_cons_of_mem c hmem)
    rw [withoutControls.eq_2 c cs fun cs' heq _ => hc heq, hrest]

/-- **The text of a document** is printed as it is. -/
theorem printed_render (j : Json) : printed (j.render ++ "\n") = j.render ++ "\n" := by
  rw [printed, withoutControls_eq_self (Json.isText_render j).noEscape, String.ofList_toList]

end Stencil.Text
