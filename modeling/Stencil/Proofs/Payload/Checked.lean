import Stencil.Payload.Given
import Stencil.Proofs.Identifier
import Stencil.Proofs.Payload.Characters

/-!
# Stencil — parsed fields pass their checks

A field and a payload are checked when they are made, from data as from a
declaration. What is read from a declaration passes every check: reading fails
for the declaration's own sake or not at all. `Payload.parseChecked` reads with
the checks in place, each at its time: a field is checked before the next entry is
looked at, and the payload comes last.

Main results:

* `ofData_record` — a well-made field passes its checks;
* `fieldsOf_wellMade` — the fields of the entries are well made, and their names
  differ;
* `parse_checked` — no check refuses what was read.
-/

namespace Stencil.Payload

open Stencil.Text Stencil.Check

/-! ## The checks -/

/-- The record that describes a field. -/
def Field.record (f : Field) : List (Data × Data) :=
  [(.text "name", .text f.name), (.text "optional", .bool f.isOptional),
    (.text "type_expression", .text f.typeText),
    (.text "line", match f.line with | none => .null | some n => .int n)]

/-- A field as a declaration gives it. -/
structure Field.WellMade (f : Field) : Prop where
  name : isIdentifier f.name.toList = true
  trimmed : strip f.typeText = f.typeText
  notEmpty : f.typeText ≠ ""
  oneLine : '\n' ∉ f.typeText.toList

section Checks

variable {f : Field}

theorem Field.WellMade.notBlank (h : f.WellMade) : isBlankText f.typeText = false := by
  by_contra hblank
  have hall : ∀ c ∈ f.typeText.toList, isBlank c = true := by
    simpa [isBlankText] using hblank
  have htrim := h.trimmed
  rw [strip, trim, trimWhere_eq_nil_iff.mpr hall] at htrim
  exact h.notEmpty htrim.symm

/-- **A well-made field passes its checks**, and is the field that its record
describes. -/
theorem ofData_record (h : f.WellMade) : Field.ofData f.record = .ok f := by
  obtain ⟨name, isOptional, typeText, line⟩ := f
  have hname : isDeclarable name = true := isDeclarable_of_isIdentifier h.name
  have htype : isBlankText typeText = false := h.notBlank
  cases line <;>
    simp [Field.ofData, Field.record, field, Data.lookup?, Data.isText, readFieldName, readText,
      readTypeText, readFlag, nullable, readWhole, both, under, hname, htype, Except.map]

/-- No two fields of one name: the payload passes its check. -/
theorem repeatedName?_go_eq_none {fields : List Field} {seen : List String}
    (hdistinct : (fields.map (·.name)).Nodup) (hnew : ∀ f ∈ fields, f.name ∉ seen) :
    Payload.repeatedName?.go seen fields = none := by
  induction fields generalizing seen with
  | nil => rfl
  | cons f fields ih =>
    rw [List.map_cons, List.nodup_cons] at hdistinct
    rw [List.forall_mem_cons] at hnew
    rw [Payload.repeatedName?.go, if_neg (by simpa using hnew.1)]
    refine ih hdistinct.2 fun g hg hmem => ?_
    rcases List.mem_cons.mp hmem with hname | hseen
    · exact hdistinct.1 (List.mem_map.mpr ⟨g, hg, hname⟩)
    · exact hnew.2 g hg hseen

theorem ofFields_of_nodup {fields : List Field} (h : (fields.map (·.name)).Nodup)
    (source : String) : Payload.ofFields fields source = .ok ⟨fields, source⟩ := by
  rw [Payload.ofFields, Payload.repeatedName?, repeatedName?_go_eq_none h (by simp)]

end Checks

/-! ## The fields of the entries -/

section Entries

variable {source : String} {earlier : List (String × Nat)} {es : List Entry} {fields : List Field}

theorem trim_typeText {text : List Char} {parts : EntryParts}
    (h : splitEntry? text = some parts) : trim parts.typeText = parts.typeText := by
  unfold splitEntry? at h
  split at h
  · simp at h
  split at h
  · simp only at h
    split at h
    · obtain rfl := Option.some.inj h
      exact trimWhere_trimWhere isBlank _
    · simp at h
  · simp at h

/-- The field of an entry on lines without line feeds. -/
theorem wellMade_of_parts {e : Entry} {parts : EntryParts} (he : e.MadeOf (· ≠ '\n'))
    (h : splitEntry? e.text = some parts) (htype : parts.typeText ≠ []) :
    (⟨String.ofList parts.name, parts.isOptional, String.ofList parts.typeText,
      some e.number⟩ : Field).WellMade := by
  obtain ⟨hname, hchars⟩ := splitEntry?_characters h
  refine ⟨?_, ?_, fun hempty => htype (by simpa using hempty), fun hfeed => ?_⟩
  · rwa [String.toList_ofList]
  · rw [strip, String.toList_ofList, trim_typeText h]
  · rw [String.toList_ofList] at hfeed
    -- between its stretches an entry has spaces
    rcases mem_entryText he '\n' (hchars '\n' hfeed) with hne | hspace
    · exact hne rfl
    · exact absurd hspace (by decide)

theorem ne_of_firstLine? {name : String} (h : firstLine? name earlier = none) :
    ∀ p ∈ earlier, p.1 ≠ name := by
  intro p hp hname
  rw [firstLine?, Option.map_eq_none_iff, List.find?_eq_none] at h
  exact h p hp (by simp [hname])

/-- **The fields of the entries** are well made, and no two of them have one
name, nor one of them that of an earlier one. -/
theorem fieldsOf_wellMade (hes : ∀ e ∈ es, e.MadeOf (· ≠ '\n'))
    (h : fieldsOf source earlier es = .ok fields) :
    (∀ f ∈ fields, f.WellMade) ∧ (fields.map (·.name)).Nodup ∧
      ∀ f ∈ fields, ∀ p ∈ earlier, p.1 ≠ f.name := by
  induction es generalizing earlier fields with
  | nil =>
    obtain rfl := Except.ok.inj h
    simp
  | cons e es ih =>
    rw [List.forall_mem_cons] at hes
    obtain ⟨parts, rest, hparts, htype, hfirst, hrest, rfl⟩ := fieldsOf_cons_eq_ok h
    obtain ⟨hmade, hdistinct, hnew⟩ := ih hes.2 hrest
    refine ⟨?_, ?_, ?_⟩
    · exact List.forall_mem_cons.mpr ⟨wellMade_of_parts hes.1 hparts htype, hmade⟩
    · rw [List.map_cons, List.nodup_cons]
      refine ⟨fun hmem => ?_, hdistinct⟩
      -- a later field of that name would repeat this one
      obtain ⟨f, hf, hname⟩ := List.mem_map.mp hmem
      exact hnew f hf _ (List.mem_append_right _ (List.mem_singleton_self _)) hname.symm
    · rw [List.forall_mem_cons]
      exact ⟨ne_of_firstLine? hfirst, fun f hf p hp => hnew f hf p (List.mem_append_left _ hp)⟩

end Entries

/-- No two fields that are read off a text have one name. -/
theorem nodup_names_of_parse {text source : String} {p : Payload}
    (h : Payload.parse text source = .ok p) : p.names.Nodup := by
  obtain ⟨body, firstLine, es, -, hentries, hfields⟩ := parse_eq_ok h
  have hmade : ∀ e ∈ es, e.MadeOf (· ≠ '\n') :=
    madeOf_entries (fun l hl c hc => (mem_of_mem_code hl c hc).2) hentries
  exact (fieldsOf_wellMade hmade hfields).2.1

/-! ## Reading with the checks -/

/-- Why no payload comes out of a text. -/
inductive Rejection where
  /-- The declaration cannot be read. -/
  | unreadable (e : ParseError)
  /-- A check refuses what was read. -/
  | invalid (report : Report)
  deriving DecidableEq, Repr

/-- The fields of the entries, each of them checked when it is made. -/
def fieldsChecked (source : String) (earlier : List (String × Nat)) :
    List Entry → Except Rejection (List Field)
  | [] => .ok []
  | e :: rest =>
    let refuse (flaw : Flaw) : Except Rejection (List Field) :=
      .error (.unreadable ⟨flaw, source, some e.number, some (String.ofList e.line)⟩)
    match splitEntry? e.text with
    | none => refuse .notAField
    | some parts =>
      let name := String.ofList parts.name
      if parts.typeText = [] then refuse (.noType name)
      else
        match firstLine? name earlier with
        | some line => refuse (.repeated name line)
        | none =>
          let given : Field :=
            ⟨name, parts.isOptional, String.ofList parts.typeText, some e.number⟩
          match Field.ofData given.record with
          | .error report => .error (.invalid report)
          | .ok f => (fieldsChecked source (earlier ++ [(name, e.number)]) rest).map (f :: ·)

/-- The payload type that the text declares, checked. -/
def parseChecked (text source : String) : Except Rejection Payload := do
  let (body, firstLine) ← (declaredBody source text.toList).mapError .unreadable
  let es ← (entries source (codeLines body firstLine)).mapError .unreadable
  let fields ← fieldsChecked source [] es
  (Payload.ofFields fields source).mapError .invalid

section Reading

variable {source : String} {es : List Entry}

theorem fieldsChecked_eq (hes : ∀ e ∈ es, e.MadeOf (· ≠ '\n')) (earlier : List (String × Nat)) :
    fieldsChecked source earlier es = (fieldsOf source earlier es).mapError .unreadable := by
  induction es generalizing earlier with
  | nil => rfl
  | cons e es ih =>
    rw [List.forall_mem_cons] at hes
    rw [fieldsChecked, fieldsOf]
    cases hparts : splitEntry? e.text with
    | none => rfl
    | some parts =>
      by_cases htype : parts.typeText = []
      · simp only [htype, if_true]
        rfl
      · have hchecked := ofData_record (wellMade_of_parts hes.1 hparts htype)
        simp only [htype, if_false, hchecked, ih hes.2]
        cases firstLine? (String.ofList parts.name) earlier with
        | some line => rfl
        | none => cases fieldsOf source _ es <;> rfl

/-- **No check refuses what was read.** With the checks a declaration is read as
without them, and fails as without them, for the declaration's own sake. The names
of the fields that are read differ; each of them is an identifier, and each type is
on one line, has no blanks around it and is not empty. -/
theorem parse_checked (text source : String) :
    parseChecked text source = (Payload.parse text source).mapError .unreadable ∧
      ∀ p, Payload.parse text source = .ok p →
        p.names.Nodup ∧ ∀ f ∈ p.fields, f.WellMade := by
  rw [parseChecked, Payload.parse]
  cases hbody : declaredBody source text.toList with
  | error e => exact ⟨rfl, by simp [bind, Except.bind]⟩
  | ok found =>
    obtain ⟨body, firstLine⟩ := found
    cases hentries : entries source (codeLines body firstLine) with
    | error e => simp [hentries, bind, Except.bind, Except.mapError]
    | ok es =>
      have hmade : ∀ e ∈ es, e.MadeOf (· ≠ '\n') :=
        madeOf_entries (fun l hl c hc => (mem_of_mem_code hl c hc).2) hentries
      simp only [Except.mapError, bind, Except.bind, pure, Except.pure, hentries,
        fieldsChecked_eq hmade]
      cases hfields : fieldsOf source [] es with
      | error e => simp
      | ok fields =>
        obtain ⟨hwell, hdistinct, -⟩ := fieldsOf_wellMade hmade hfields
        simp only [ofFields_of_nodup hdistinct]
        refine ⟨trivial, ?_⟩
        rintro p ⟨⟩
        exact ⟨hdistinct, hwell⟩

/-- Blanks of other kinds stand around the type. -/
theorem parse_checked_blanks :
    ∃ p, parseChecked "export type typePayload = \x7ba?\u00a0:\t\u2028b c\u3000\x7d" "t" = .ok p ∧
      p.names = ["a"] ∧ ∀ f ∈ p.fields, f.WellMade := by
  obtain ⟨hchecked, hmade⟩ :=
    parse_checked "export type typePayload = \x7ba?\u00a0:\t\u2028b c\u3000\x7d" "t"
  have hparse : Payload.parse "export type typePayload = \x7ba?\u00a0:\t\u2028b c\u3000\x7d" "t" =
      .ok ⟨[⟨"a", true, "b c", some 1⟩], "t"⟩ := by rfl
  rw [hparse] at hchecked
  exact ⟨_, hchecked, rfl, (hmade _ hparse).2⟩

end Reading

end Stencil.Payload
