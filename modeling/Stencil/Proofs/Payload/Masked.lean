import Stencil.Proofs.Payload.Literals

/-!
# Stencil — reading a body with dots

A body and the body with dots for the marks in its literals are cut alike, and so
the same fields come out of both: they differ in the dots only. If one of the two
is refused, then so is the other, for the same flaw on the same line. A literal
therefore opens and closes no brace and ends no field, whatever stands in it.

Main results:

* `splitEntry?_alike`, `fieldsOf_alike` — entries and fields;
* `scanners_agree` — reading a declaration never loses count of the braces.
-/

namespace Stencil.Payload

open Stencil.Text Cutting

/-! ## An entry taken apart -/

/-- Entries taken apart that differ in dots in the type only. -/
structure EntryParts.Alike (a b : EntryParts) : Prop where
  name : b.name = a.name
  isOptional : b.isOptional = a.isOptional
  typeText : List.Forall₂ Blurs a.typeText b.typeText

section Split

variable {c d : Char} {cs ds : List Char}

theorem Blurs.eq_of_part (h : Blurs c d) (hc : isIdentifierPart c = true) : d = c := by
  rcases h with rfl | ⟨hmark, -⟩
  · rfl
  · -- no mark is part of a name
    simp [of_isMark (P := isIdentifierPart) (by decide) hmark] at hc

theorem eq_of_alike_parts (h : List.Forall₂ Blurs cs ds)
    (hcs : ∀ c ∈ cs, isIdentifierPart c = true) : ds = cs := by
  induction h with
  | nil => rfl
  | cons hcd hrest ih =>
    rw [List.forall_mem_cons] at hcs
    rw [hcd.eq_of_part hcs.1, ih hcs.2]

theorem dropMark_alike (h : List.Forall₂ Blurs cs ds) :
    (dropMark ds).1 = (dropMark cs).1 ∧ List.Forall₂ Blurs (dropMark cs).2 (dropMark ds).2 := by
  cases h with
  | nil => exact ⟨rfl, .nil⟩
  | @cons c d cs ds hcd hrest =>
    have hmark := hcd.eq_iff (x := '?') (by decide) (by decide)
    by_cases hc : c = '?'
    · obtain rfl := hmark.mpr hc
      subst hc
      exact ⟨rfl, hrest⟩
    · have hd : d ≠ '?' := fun hd => hc (hmark.mp hd)
      rw [dropMark, dropMark]
      · exact ⟨rfl, .cons hcd hrest⟩
      · rintro rest ⟨⟩
        exact hc rfl
      · rintro rest ⟨⟩
        exact hd rfl

/-- What stands behind the colon. -/
theorem afterColon_alike (name : List Char) (isOptional : Bool) :
    List.Forall₂ Blurs cs ds → Option.Rel EntryParts.Alike
      (match cs with
        | ':' :: rest => some ⟨name, isOptional, trim rest⟩
        | _ => none)
      (match ds with
        | ':' :: rest => some ⟨name, isOptional, trim rest⟩
        | _ => none) := by
  intro h
  cases h with
  | nil => exact .none
  | @cons c d cs ds hcd hrest =>
    -- a colon is no mark, so that both texts have it or none
    have hcolon := hcd.eq_iff (x := ':') (by decide) (by decide)
    by_cases hc : c = ':'
    · obtain rfl := hcolon.mpr hc
      subst hc
      exact .some ⟨rfl, rfl, alike_trim (fun _ _ => Blurs.isBlank_eq) hrest⟩
    · have hd : d ≠ ':' := fun hd => hc (hcolon.mp hd)
      split
      · rename_i heq
        exact absurd (List.cons.inj heq).1 hc
      · split
        · rename_i heq
          exact absurd (List.cons.inj heq).1 hd
        · exact .none

/-- **An entry and the entry with dots are taken apart alike**: names, question
marks and colons stand outside of literals. -/
theorem splitEntry?_alike (h : List.Forall₂ Blurs cs ds) :
    Option.Rel EntryParts.Alike ( splitEntry? cs) ( splitEntry? ds) := by
  cases h with
  | nil => exact .none
  | @cons c d cs ds hcd hrest =>
    rw [ splitEntry?, splitEntry?, ← hcd.class_eq (P := isIdentifierStart) (by decide)
      (by decide)]
    split
    · rename_i hstart
      obtain rfl : d = c := hcd.eq_of_part (isIdentifierPart_of_start hstart)
      have hpart : ∀ a b, Blurs a b → isIdentifierPart a = isIdentifierPart b :=
        fun _ _ hab => hab.class_eq (by decide) (by decide)
      -- no part of a name is masked
      have hname : ds.takeWhile isIdentifierPart = cs.takeWhile isIdentifierPart :=
        eq_of_alike_parts (alike_takeWhile hpart hrest) fun _ hc => List.mem_takeWhile_imp hc
      obtain ⟨hmark, hbehind⟩ := dropMark_alike (alike_dropWhile hpart hrest)
      simp only [hname, hmark]
      exact afterColon_alike _ _ (alike_dropWhile (fun _ _ => Blurs.isBlank_eq) hbehind)
    · exact .none

theorem Entry.Alike.text {e e' : Entry} (h : e.Alike e') : List.Forall₂ Blurs e.text e'.text := by
  have htrim : List.Forall₂ (List.Forall₂ Blurs) (e.parts.map trim) (e'.parts.map trim) :=
    List.rel_map (fun _ _ hab => alike_trim (fun _ _ => Blurs.isBlank_eq) hab) h.parts
  refine alike_intercalate (.cons (.refl ' ') .nil) (List.rel_filter (fun a b hab => ?_) htrim)
  simp [alike_nil_iff hab]

end Split

/-! ## Fields and payloads -/

/-- Fields that differ in dots in the type only. -/
structure Field.Alike (f g : Field) : Prop where
  name : g.name = f.name
  isOptional : g.isOptional = f.isOptional
  typeText : List.Forall₂ Blurs f.typeText.toList g.typeText.toList
  line : g.line = f.line

/-- Payloads of such fields. -/
structure Alike (p q : Payload) : Prop where
  fields : List.Forall₂ Field.Alike p.fields q.fields
  source : q.source = p.source

section Outcome

variable {α β : Type} {R : α → α → Prop} {S : β → β → Prop} {x x' : Except ParseError α}
  {source : String} {k k' : Cutting} {es es' : List Entry}

theorem SameOutcome.bind {f g : α → Except ParseError β} (h : SameOutcome R x x')
    (hfg : ∀ a a', R a a' → SameOutcome S (f a) (g a')) : SameOutcome S (x.bind f) (x'.bind g) := by
  cases h with
  | ok hab => exact hfg _ _ hab
  | error hline => exact .error hline

theorem SameOutcome.map {f g : α → β} (h : SameOutcome R x x')
    (hfg : ∀ a a', R a a' → S (f a) (g a')) : SameOutcome S (x.map f) (x'.map g) := by
  cases h with
  | ok hab => exact .ok (hfg _ _ hab)
  | error hline => exact .error hline

theorem finish_alike (h : k.Alike k') :
    SameOutcome (List.Forall₂ Entry.Alike) (finish source k) (finish source k') := by
  rw [finish, finish]
  rcases h.current_cases with ⟨hk, hk'⟩ | ⟨e, e', hk, hk', he⟩
  · rw [hk, hk']
    exact .ok h.entries
  · rw [hk, hk']
    simp only [he.number]
    exact .error he.line

/-- **Entries that differ in dots make fields that do**, or none of the two makes
any. -/
theorem fieldsOf_alike (h : List.Forall₂ Entry.Alike es es') (earlier : List (String × Nat)) :
    SameOutcome (List.Forall₂ Field.Alike) (fieldsOf source earlier es)
      (fieldsOf source earlier es') := by
  induction h generalizing earlier with
  | nil => exact .ok .nil
  | @cons e e' es es' he hes ih =>
    have hsplit := splitEntry?_alike he.text
    rw [fieldsOf, fieldsOf, he.number]
    generalize splitEntry? e.text = found, splitEntry? e'.text = found' at hsplit ⊢
    cases hsplit with
    | none => exact .error he.line
    | @some parts parts' halike =>
      -- names are the same, and so is what is refused for a name
      simp only [halike.name, halike.isOptional, ← alike_nil_iff halike.typeText]
      split
      · exact .error he.line
      split
      · exact .error he.line
      · refine (ih _).map fun fields fields' hfields => .cons ⟨rfl, rfl, ?_, rfl⟩ hfields
        rw [String.toList_ofList, String.toList_ofList]
        exact halike.typeText

end Outcome

/-! ## Reading a declaration -/

section Reading

variable {text source : String} {body : List Char} {firstLine : Nat}

/-- **A body and the body with dots** come to the same entries. -/
theorem sweepBody_masked (hcloses : Position.start.Closes body) (hlines : LineByLine body)
    (hescape : QuotesUnescaped body) :
    SameOutcome (List.Forall₂ Entry.Alike) (sweepBody source body firstLine)
      (sweepBody source (masked body) firstLine) := by
  have hsweep : SameOutcome Cutting.Alike
      (sweep source .begin (openingLine firstLine body) .start body)
      (sweep source .begin (openingLine firstLine (masked body)) .start (masked body)) :=
    sweep_masked alike_start (alike_openingLine (alike_mask _ body)) (fun h => absurd rfl h)
      agrees_start Position.sound_start hcloses (hlines.plain hescape) (fun _ => rfl) fun _ => rfl
  exact hsweep.bind fun _ _ => finish_alike

/-- **No brace is lost count of.** A declaration is never refused for a brace that
closes nothing or for one that is never closed, and for a brace inside of another
one only if the code of the body has such a brace. Braces, other quotes and
semicolons in a literal change nothing: with dots in their place the same fields
are read, or the same flaw is found on the same line. `before` is what stands before
the body and `tail` what stands behind the brace that closes it. -/
theorem scanners_agree (h : declaredBody source text.toList = .ok (body, firstLine))
    (hlines : LineByLine body) (hescape : QuotesUnescaped body) :
    (∀ e, Payload.parse text source = .error e →
      e.flaw ≠ .strayBrace ∧ e.flaw ≠ .openObject ∧
        (e.flaw = .tooDeep → ∃ s ∈ spots body, s.isDeep = true)) ∧
    ∃ before tail, text.toList = before ++ (body ++ '\x7d' :: tail) ∧
      afterHead? text.toList = some (body ++ '\x7d' :: tail) ∧
      SameOutcome Payload.Alike (Payload.parse text source)
        (Payload.parse (String.ofList (before ++ (masked body ++ '\x7d' :: tail))) source) := by
  obtain ⟨hcloses, before, tail, hsplit, hafter, -, hreplace⟩ := declaredBody_replace h
  refine ⟨fun e he => ?_, before, tail, hsplit, hafter, ?_⟩
  · -- a reading fails at an entry or at the first brace that is too deep
    rcases parse_follows h hlines hescape with ⟨-, hother⟩ | ⟨s, line, hfound, herror⟩
    · have hfield := hother e he
      refine ⟨?_, ?_, ?_⟩ <;> intro hflaw <;> simp [hflaw, Flaw.isOfField] at hfield
    · obtain rfl := Except.error.inj (herror.symm.trans he)
      exact ⟨by simp, by simp,
        fun _ => ⟨s, List.mem_of_find?_eq_some hfound, List.find?_some hfound⟩⟩
  · -- the body with dots is found in the place of the body
    have hmasked : declaredBody source
        (String.ofList (before ++ (masked body ++ '\x7d' :: tail))).toList =
        .ok (masked body, firstLine) := by
      rw [String.toList_ofList]
      exact hreplace _ (hcloses.mask Position.sound_start)
    rw [parse_of_declaredBody h, parse_of_declaredBody hmasked]
    exact (sweepBody_masked hcloses hlines hescape).bind fun es es' hes =>
      (fieldsOf_alike hes []).map fun fields fields' hfields => ⟨hfields, rfl⟩

/-- The literal holds a quote of the other kind behind a backslash, braces and a
semicolon. -/
theorem scanners_agree_quoted :
    SameOutcome Payload.Alike
      (Payload.parse "export type typePayload = \x7ba: \"x\\'\x7d\x7b;\"; b?: c\x7d" "t")
      (Payload.parse "export type typePayload = \x7ba: \"x\\....\"; b?: c\x7d" "t") := by
  have hbody : declaredBody "t"
      "export type typePayload = \x7ba: \"x\\'\x7d\x7b;\"; b?: c\x7d".toList =
      .ok ("a: \"x\\'\x7d\x7b;\"; b?: c".toList, 1) := by decide
  obtain ⟨-, before, tail, hsplit, hafter, hsame⟩ :=
    scanners_agree hbody ⟨by decide, by decide⟩ (by decide)
  -- the text is the head, this body, and a brace
  have hrest : afterHead? "export type typePayload = \x7ba: \"x\\'\x7d\x7b;\"; b?: c\x7d".toList =
      some ("a: \"x\\'\x7d\x7b;\"; b?: c".toList ++ ['\x7d']) := by decide
  obtain rfl : tail = [] := by
    simpa using List.append_cancel_left (Option.some.inj (hafter.symm.trans hrest))
  have hhead : "export type typePayload = \x7ba: \"x\\'\x7d\x7b;\"; b?: c\x7d".toList =
      "export type typePayload = \x7b".toList ++
        ("a: \"x\\'\x7d\x7b;\"; b?: c".toList ++ ['\x7d']) := by decide
  obtain rfl := List.append_cancel_right (hsplit.symm.trans hhead)
  exact hsame

/-- A literal that holds its own quote behind a backslash is cut short. -/
example : Payload.parse "export type typePayload = \x7ba: 'x\\'\x7d'\x7d" "t" =
    .error ⟨.strayBrace, "t", some 1, some "a: 'x\\'\x7d'"⟩ := by
  rfl

end Reading

end Stencil.Payload
