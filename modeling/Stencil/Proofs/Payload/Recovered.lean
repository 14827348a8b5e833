import Stencil.Payload.Snippet
import Stencil.Proofs.Identifier
import Stencil.Proofs.Payload.Characters
import Stencil.Proofs.Payload.Schema

/-!
# Stencil — fields read back from the snippets

The snippets of a parsed payload list its fields, and the list is found again by
cutting the text where it was joined. That asks for parts without the first
character of their separator. Names are identifiers, so there is no comma in them;
and a schema stands on one line because the text of a type does: the characters of
a schema are those of the type, or of a few fixed words.

Main results:

* `splitText_joinWith` — cutting a joined text gives its parts;
* `snippets_list_fields` — the snippets of a payload list its fields, each once and
  in order.
-/

namespace Stencil.Text

/-! ## Cutting at a separator -/

/-- The parts of a text, without the separator between them, which is looked for from
the left. The first characters are skipped: they belong to a separator that was found
already. -/
def partsFrom (separator : List Char) : Nat → List Char → List (List Char)
  | _, [] => [[]]
  | skipped + 1, _ :: rest => partsFrom separator skipped rest
  | 0, c :: rest =>
    if separator.isPrefixOf (c :: rest) then
      [] :: partsFrom separator (separator.length - 1) rest
    else
      match partsFrom separator 0 rest with
      | [] => [[c]]
      | part :: parts => (c :: part) :: parts

/-- The parts of a text between one separator and the next. -/
def splitText (separator text : String) : List String :=
  (partsFrom separator.toList 0 text.toList).map String.ofList

section Parts

variable {c : Char} {cs part rest separator : List Char} {parts : List (List Char)}

theorem partsFrom_skipped (separator skipped rest : List Char) :
    partsFrom separator skipped.length (skipped ++ rest) = partsFrom separator 0 rest := by
  induction skipped with
  | nil => rfl
  | cons c skipped ih => exact ih

/-- A separator is found where it stands. -/
theorem partsFrom_separator (c : Char) (cs rest : List Char) :
    partsFrom (c :: cs) 0 (c :: cs ++ rest) = [] :: partsFrom (c :: cs) 0 rest := by
  have hprefix : (c :: cs).isPrefixOf (c :: (cs ++ rest)) = true :=
    List.isPrefixOf_iff_prefix.mpr (List.prefix_append (c :: cs) rest)
  rw [List.cons_append, partsFrom, if_pos hprefix]
  exact congrArg _ (partsFrom_skipped (c :: cs) cs rest)

/-- No separator starts with another character than its first one. -/
theorem partsFrom_cons {d : Char} (hd : c ≠ d) (h : partsFrom (c :: cs) 0 rest = part :: parts) :
    partsFrom (c :: cs) 0 (d :: rest) = (d :: part) :: parts := by
  rw [partsFrom, if_neg (by simp [List.isPrefixOf, hd]), h]

theorem partsFrom_append (hpart : c ∉ part)
    (h : partsFrom (c :: cs) 0 rest = [] :: parts) :
    partsFrom (c :: cs) 0 (part ++ rest) = part :: parts := by
  induction part with
  | nil => exact h
  | cons d part ih =>
    rw [List.mem_cons, not_or] at hpart
    exact partsFrom_cons hpart.1 (ih hpart.2)

/-- Cutting takes apart what was joined, if no part has the first character of the
separator. -/
theorem partsFrom_intercalate (hne : parts ≠ []) (h : ∀ part ∈ parts, c ∉ part) :
    partsFrom (c :: cs) 0 ((c :: cs).intercalate parts) = parts := by
  induction parts with
  | nil => exact absurd rfl hne
  | cons part parts ih =>
    have hpart : c ∉ part := h part (by simp)
    cases parts with
    | nil =>
      have hend : partsFrom (c :: cs) 0 (part ++ []) = [part] :=
        partsFrom_append hpart (by rw [partsFrom])
      rw [List.append_nil] at hend
      rw [List.intercalate_singleton, hend]
    | cons next parts =>
      have hrest := ih (by simp) fun q hq => h q (List.mem_cons_of_mem part hq)
      rw [List.intercalate_cons_cons, List.append_assoc]
      refine partsFrom_append hpart ?_
      rw [partsFrom_separator, hrest]

end Parts

end Stencil.Text

namespace Stencil.Payload

open Stencil.Text

/-- **Cutting a joined text gives its parts.** -/
theorem splitText_joinWith {separator : String} {c : Char} {cs : List Char} {parts : List String}
    (hseparator : separator.toList = c :: cs) (hne : parts ≠ [])
    (h : ∀ part ∈ parts, c ∉ part.toList) :
    splitText separator (joinWith separator parts) = parts := by
  have hcut : partsFrom (c :: cs) 0 ((c :: cs).intercalate (parts.map String.toList)) =
      parts.map String.toList := by
    refine partsFrom_intercalate (by simpa using hne) ?_
    rw [List.forall_mem_map]
    exact h
  rw [splitText, joinWith, String.toList_intercalate, hseparator, hcut, List.map_map]
  simp

/-! ## The snippets -/

/-- A field whose name and type do not break the lists that it stands in. -/
structure IsListable (f : Field) : Prop where
  name : isIdentifier f.name.toList = true
  oneLine : '\n' ∉ f.typeText.toList

section Snippets

variable {fields others : List Field} {items items' : List String}

theorem IsListable.notMem_name {f : Field} (h : IsListable f) {c : Char}
    (hc : isIdentifierPart c = false) : c ∉ f.name.toList :=
  notMem_of_isIdentifier h.name hc

theorem IsListable.notMem_schemaLine {f : Field} (h : IsListable f) :
    '\n' ∉ (schemaLine f).toList := by
  have hname := h.notMem_name (c := '\n') (by decide)
  have hschema : '\n' ∉ f.schema := by
    -- the values of a choice are copied from the type, so its text has to be on one line
    intro hmem
    rcases mem_of_mem_schema hmem with hmem | hmem
    · exact h.oneLine hmem
    · exact absurd hmem (by decide)
  simp [schemaLine, hname, hschema]

/-- A list between braces is that list. -/
theorem exists_braced (hne : items ≠ []) (hcomma : ∀ i ∈ items, ',' ∉ i.toList) :
    ∃ inner, braced items = "\x7b " ++ inner ++ " \x7d" ∧ splitText ", " inner = items := by
  refine ⟨joinWith ", " items, ?_, splitText_joinWith rfl hne hcomma⟩
  cases items with
  | nil => exact absurd rfl hne
  | cons i items => rfl

/-- No list between braces looks like the empty one, or like another. -/
theorem braced_inj (hcomma : ∀ i ∈ items, ',' ∉ i.toList) (hcomma' : ∀ i ∈ items', ',' ∉ i.toList)
    (h : braced items = braced items') : items = items' := by
  have hempty : ∀ inner : String, "\x7b\x7d" ≠ "\x7b " ++ inner ++ " \x7d" := by
    intro inner heq
    have hlist := congrArg String.toList heq
    simp at hlist
  by_cases hne : items = []
  · by_cases hne' : items' = []
    · rw [hne, hne']
    · obtain ⟨inner, hinner, -⟩ := exists_braced hne' hcomma'
      rw [hne, hinner] at h
      exact absurd h (hempty inner)
  · obtain ⟨inner, hinner, hitems⟩ := exists_braced hne hcomma
    by_cases hne' : items' = []
    · rw [hne', hinner] at h
      exact absurd h.symm (hempty inner)
    · obtain ⟨inner', hinner', hitems'⟩ := exists_braced hne' hcomma'
      rw [hinner, hinner'] at h
      have hlist : inner.toList = inner'.toList := by
        simpa using congrArg String.toList h
      rw [← hitems, ← hitems', String.toList_inj.mp hlist]

/-- The lines of the schema: one for each field, between the first and the last. -/
theorem splitText_validationStub (hne : fields ≠ []) (h : ∀ f ∈ fields, IsListable f) :
    splitText "\n" (validationStub fields) =
      "z.object(\x7b" :: (fields.map schemaLine ++ ["\x7d)"]) := by
  have hstub : validationStub fields =
      joinWith "\n" ("z.object(\x7b" :: (fields.map schemaLine ++ ["\x7d)"])) := by
    cases fields with
    | nil => exact absurd rfl hne
    | cons f fields => rfl
  rw [hstub]
  refine splitText_joinWith rfl (by simp) fun line hline => ?_
  rcases List.mem_cons.mp hline with rfl | hline
  · decide
  · rcases List.mem_append.mp hline with hline | hline
    · obtain ⟨f, hf, rfl⟩ := List.mem_map.mp hline
      exact (h f hf).notMem_schemaLine
    · obtain rfl := List.mem_singleton.mp hline
      decide

theorem destructuring_inj (h : ∀ f ∈ fields, IsListable f) (h' : ∀ f ∈ others, IsListable f)
    (heq : destructuring fields = destructuring others) :
    fields.map (·.name) = others.map (·.name) := by
  have hcomma : ∀ {fs : List Field}, (∀ f ∈ fs, IsListable f) →
      ∀ i ∈ fs.map (·.name), ',' ∉ i.toList := by
    intro fs hfs
    rw [List.forall_mem_map]
    exact fun f hf => (hfs f hf).notMem_name (by decide)
  exact braced_inj (hcomma h) (hcomma h') heq

end Snippets

/-! ## Parsed payloads -/

section Parsed

variable {text source : String} {p : Payload}

theorem isListable_of_parse (h : Payload.parse text source = .ok p) :
    ∀ f ∈ p.fields, IsListable f := by
  intro f hf
  obtain ⟨hname, htype⟩ := parse_characters h f hf
  exact ⟨hname, fun hmem => (htype _ hmem).2 rfl⟩

/-- **The snippets of a parsed payload list its fields**, whatever the types say: its
names and its pairs come back by cutting at the commas, and its schema has one line
for each field between its first line and its last. So payloads with the same pattern
have the same names. -/
theorem snippets_list_fields (h : Payload.parse text source = .ok p) :
    (p.fields ≠ [] →
      (∃ inner, destructuring p.fields = "\x7b " ++ inner ++ " \x7d" ∧
        splitText ", " inner = p.fields.map (·.name)) ∧
      (∃ inner, fieldObject p.fields = "\x7b " ++ inner ++ " \x7d" ∧
        splitText ", " inner = p.fields.map fun f => f.name ++ ": " ++ f.name) ∧
      (splitText "\n" (validationStub p.fields)).length = p.fields.length + 2 ∧
      ∀ (i : Nat) (hi : i < p.fields.length),
        (splitText "\n" (validationStub p.fields))[i + 1]? =
          some ("  " ++ p.fields[i].name ++ ": " ++ String.ofList p.fields[i].schema ++ ",")) ∧
    ∀ {text' source' : String} {q : Payload}, Payload.parse text' source' = .ok q →
      destructuring p.fields = destructuring q.fields →
      p.fields.map (·.name) = q.fields.map (·.name) := by
  have hlist := isListable_of_parse h
  refine ⟨fun hne => ⟨?_, ?_, ?_, ?_⟩, fun hq heq => ?_⟩
  · refine exists_braced (by simpa using hne) ?_
    rw [List.forall_mem_map]
    exact fun f hf => (hlist f hf).notMem_name (by decide)
  · refine exists_braced (by simpa using hne) ?_
    rw [List.forall_mem_map]
    intro f hf
    have hname := (hlist f hf).notMem_name (c := ',') (by decide)
    simp [hname]
  · rw [splitText_validationStub hne hlist]
    simp
  · intro i hi
    rw [splitText_validationStub hne hlist, List.getElem?_cons_succ,
      List.getElem?_append_left (by simpa using hi), List.getElem?_map,
      List.getElem?_eq_getElem hi]
    rfl
  · exact destructuring_inj hlist (isListable_of_parse hq) heq

/-- Literals with a comma, a brace and a colon in them add nothing. -/
theorem snippets_list_literals :
    ∃ p q,
      Payload.parse "export type typePayload = \x7bid: ', b'\nkind?: '\x7d,' | ': '\x7d" "t" =
        .ok p ∧
      Payload.parse "export type typePayload = \x7b id?: number; kind: Date \x7d" "u" = .ok q ∧
      (splitText "\n" (validationStub p.fields)).length = 4 ∧
      p.fields.map (·.name) = q.fields.map (·.name) := by
  have hparse :
      Payload.parse "export type typePayload = \x7bid: ', b'\nkind?: '\x7d,' | ': '\x7d" "t" =
        .ok ⟨[⟨"id", false, "', b'", some 1⟩, ⟨"kind", true, "'\x7d,' | ': '", some 2⟩], "t"⟩ := by
    rfl
  have hparse' :
      Payload.parse "export type typePayload = \x7b id?: number; kind: Date \x7d" "u" =
        .ok ⟨[⟨"id", true, "number", some 1⟩, ⟨"kind", false, "Date", some 1⟩], "u"⟩ := by
    rfl
  obtain ⟨hfields, hnames⟩ := snippets_list_fields hparse
  obtain ⟨-, -, hlength, -⟩ := hfields (by simp)
  exact ⟨_, _, hparse, hparse', hlength, hnames hparse' rfl⟩

end Parsed

end Stencil.Payload
