import Stencil.Proofs.Payload.Lockstep

/-!
# Stencil — object types inside of object types

A field may have an object type, but no object type may stand inside of another
one. A declaration is refused for that exactly if some brace of its code opens
inside of another brace, whatever else is wrong with it, and the refusal names
the line of the first such brace.
-/

namespace Stencil.Payload

open Stencil.Text

/-- A literal pairs two characters only at a backslash. -/
theorem Position.unpaired_after {p : Position} {c : Char} (hc : c ≠ '\\') (rest : List Char)
    {q : Char} (h : (p.after c rest).region = .literal q) : (p.after c rest).isPaired = false := by
  obtain ⟨region, isPaired, depth⟩ := p
  cases isPaired with
  | true => rfl
  | false =>
    cases region with
    | code =>
      cases hopens : opensComment (c :: rest) with
      | true =>
        by_cases hline : rest.head? = some '/' <;> simp [Position.after, hopens, hline] at h
      | false =>
        rw [Position.after_code depth hopens]
        split_ifs <;> rfl
    | literal q => simp [Position.after, hc]
    | lineComment => rfl
    | blockComment =>
      cases hcloses : closesComment (c :: rest) <;> simp [Position.after, hcloses] at h

theorem unpaired_spotsFrom {p : Position} {isFresh : Bool} {line : Nat} {cs : List Char}
    (hp : ∀ q, p.region = .literal q → p.isPaired = false) (hcs : '\\' ∉ cs) :
    ∀ s ∈ spotsFrom p isFresh line cs, ∀ q, s.region = .literal q → s.isPaired = false := by
  induction cs generalizing p isFresh line with
  | nil => simp [spotsFrom]
  | cons c rest ih =>
    rw [List.mem_cons, not_or] at hcs
    rw [spotsFrom, List.forall_mem_cons]
    exact ⟨hp, ih (fun _ => Position.unpaired_after (Ne.symm hcs.1) rest) hcs.2⟩

/-- Without a backslash no quote stands behind one. -/
theorem quotesUnescaped_of_notMem {body : List Char} (h : '\\' ∉ body) : QuotesUnescaped body := by
  intro s hs hpaired hregion
  have hunpaired := unpaired_spotsFrom (p := .start) (by simp [Position.start]) h s hs _ hregion
  simp [hpaired] at hunpaired

/-- **An object type inside of another one is refused**, and nothing else is
refused for that. The refusal names the line of the first brace that opens
inside of another one, counted from the start of the text: `before` is what stands
before the body. -/
theorem parse_tooDeep_iff {text source : String} {body : List Char} {firstLine : Nat}
    (h : declaredBody source text.toList = .ok (body, firstLine)) (hslash : '\\' ∉ body)
    (hlines : LineByLine body) :
    ((∃ e, Payload.parse text source = .error e ∧ e.flaw = .tooDeep) ↔
      ∃ s ∈ spots body, s.isDeep = true) ∧
    (∀ e, Payload.parse text source = .error e → e.flaw = .tooDeep →
      ∃ s, (spots body).find? Spot.isDeep = some s ∧ e.lineNumber = some (firstLine + s.line)) ∧
    ∃ before tail, text.toList = before ++ (body ++ '\x7d' :: tail) ∧
      afterHead? text.toList = some (body ++ '\x7d' :: tail) ∧
      firstLine = lineFeeds before + 1 := by
  obtain ⟨-, before, tail, hsplit, hafter, hfirst, -⟩ := declaredBody_replace h
  rw [← and_assoc]
  refine ⟨?_, before, tail, hsplit, hafter, hfirst⟩
  rcases parse_follows h hlines (quotesUnescaped_of_notMem hslash) with
    ⟨hnone, hother⟩ | ⟨s, line, hfound, herror⟩
  · -- no such brace, and every failure is that of a field
    have hnever : ∀ e, Payload.parse text source = .error e → e.flaw ≠ .tooDeep := by
      intro e he hflaw
      have hfield := hother e he
      rw [hflaw] at hfield
      simp [Flaw.isOfField] at hfield
    refine ⟨⟨fun ⟨e, he, hflaw⟩ => absurd hflaw (hnever e he), fun ⟨s, hs, hdeep⟩ => ?_⟩,
      fun e he hflaw => absurd hflaw (hnever e he)⟩
    exact absurd hdeep (by simpa using List.find?_eq_none.mp hnone s hs)
  · refine ⟨⟨fun _ => ⟨s, List.mem_of_find?_eq_some hfound, List.find?_some hfound⟩,
      fun _ => ⟨_, herror, rfl⟩⟩, fun e he _ => ⟨s, hfound, ?_⟩⟩
    obtain rfl := Except.error.inj (herror.symm.trans he)
    rfl

/-- An entry that is no field, a repeated name and a missing type stand before
the brace that is refused. -/
theorem parse_tooDeep_line_five :
    ∃ e, Payload.parse "export type typePayload = \x7b\n?\na:b\na:\nc:\x7bd:\x7be:f\x7d\x7d\x7d" "t" =
      .error e ∧ e.flaw = .tooDeep ∧ e.lineNumber = some 5 := by
  have hbody : declaredBody "t"
      "export type typePayload = \x7b\n?\na:b\na:\nc:\x7bd:\x7be:f\x7d\x7d\x7d".toList =
      .ok ("\n?\na:b\na:\nc:\x7bd:\x7be:f\x7d\x7d".toList, 1) := by decide
  have hlines : LineByLine "\n?\na:b\na:\nc:\x7bd:\x7be:f\x7d\x7d".toList :=
    ⟨by decide, by decide⟩
  obtain ⟨hiff, hline, -⟩ := parse_tooDeep_iff hbody (by decide) hlines
  obtain ⟨e, he, hflaw⟩ := hiff.mpr (by decide)
  obtain ⟨s, hs, hnumber⟩ := hline e he hflaw
  -- four line feeds stand before the second brace
  have hfour : ((spots "\n?\na:b\na:\nc:\x7bd:\x7be:f\x7d\x7d".toList).find?
      Spot.isDeep).map (·.line) = some 4 := by decide
  rw [hs] at hfour
  have hfeeds : s.line = 4 := Option.some.inj hfour
  exact ⟨e, he, hflaw, by rw [hnumber, hfeeds]⟩

end Stencil.Payload
