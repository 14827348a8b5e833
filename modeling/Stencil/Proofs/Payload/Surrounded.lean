import Stencil.Proofs.Payload.Leading
import Stencil.Proofs.Payload.Scan

/-!
# Stencil — a declaration among other texts

Reading stops at the brace that closes the declaration. So what stands behind it
is never looked at, whatever it is: other declarations, open braces, quotes or
comments. Together with what holds of a text before the declaration, only the
declaration itself counts.

Main results:

* `declaredBody_append_right` — a text behind a declaration;
* `parse_surrounded` — texts before and behind it.
-/

namespace Stencil.Payload

open Stencil.Text

section Behind

variable {cs text tail : List Char} {body : List Char} {firstLine : Nat} {source : String}

/-- The first head is the same if more follows. -/
theorem afterHead?_append_right {rest : List Char} (h : afterHead? cs = some rest)
    (tail : List Char) : afterHead? (cs ++ tail) = some (rest ++ tail) := by
  obtain ⟨before, -, rfl, hbefore⟩ := afterHead?_replace h
  rw [List.append_assoc]
  exact hbefore (rest ++ tail)

/-- A body ends with its closing brace. -/
theorem body?_append_right (h : body? cs = some body) (tail : List Char) :
    body? (cs ++ tail) = some body := by
  obtain ⟨after, rfl, hcloses⟩ := Position.closes_of_seek Position.sound_start
    ((Position.seek_of_unpaired rfl cs).trans h)
  rw [List.append_assoc, List.cons_append]
  exact (Position.seek_of_unpaired rfl _).symm.trans
    (Position.seek_of_closes Position.sound_start hcloses (after ++ tail))

/-- How the body of a declaration is found. -/
theorem declaredBody_eq_ok (h : declaredBody source text = .ok (body, firstLine)) :
    ∃ rest, afterHead? text = some rest ∧ body? rest = some body ∧
      lineFeeds text - lineFeeds rest + 1 = firstLine := by
  rw [declaredBody] at h
  split at h
  · simp at h
  · rename_i rest hrest
    simp only at h
    split at h
    · simp at h
    · rename_i body' hbody
      obtain ⟨rfl, hline⟩ := Prod.mk.inj (Except.ok.inj h)
      exact ⟨rest, hrest, hbody, hline⟩

/-- **A text behind a declaration** is not looked at. -/
theorem declaredBody_append_right (h : declaredBody source text = .ok (body, firstLine))
    (tail : List Char) : declaredBody source (text ++ tail) = .ok (body, firstLine) := by
  obtain ⟨rest, hrest, hbody, hline⟩ := declaredBody_eq_ok h
  -- the line feeds behind the declaration are counted on both sides
  have hfeeds : lineFeeds (text ++ tail) - lineFeeds (rest ++ tail) + 1 = firstLine := by
    rw [lineFeeds, lineFeeds, List.count_append, List.count_append, ← hline, lineFeeds, lineFeeds]
    omega
  rw [declaredBody, afterHead?_append_right hrest]
  simp only [body?_append_right hbody, hfeeds]

/-- Whether a head starts in a text is told by what follows up to a brace. -/
theorem startsHead_append_right {lead : List Char} (hbrace : '\x7b' ∈ text)
    (h : startsHead lead text = false) (tail : List Char) :
    startsHead lead (text ++ tail) = false := by
  induction lead with
  | nil => rfl
  | cons c lead ih =>
    rw [startsHead, Bool.or_eq_false_iff, Option.isSome_eq_false_iff,
      Option.isNone_iff_eq_none] at h ⊢
    refine ⟨?_, ih h.2⟩
    -- a head ends with the first brace, which comes before the end of the text
    by_contra hsome
    obtain ⟨rest, hrest⟩ := Option.ne_none_iff_exists'.mp hsome
    rw [← List.append_assoc, ← List.cons_append] at hrest
    obtain ⟨rest', -, hhead⟩ := dropHead_append (by simp [hbrace]) hrest []
    rw [List.append_nil, h.1] at hhead
    simp at hhead

end Behind

/-- A text has a declaration if it is read, or refused for something else. -/
theorem exists_declaredBody {text source : String}
    (h : ∀ e, Payload.parse text source = .error e →
      e.flaw ≠ .noDeclaration ∧ e.flaw ≠ .openDeclaration) :
    ∃ body firstLine, declaredBody source text.toList = .ok (body, firstLine) := by
  cases hbody : declaredBody source text.toList with
  | ok found => exact ⟨found.1, found.2, rfl⟩
  | error e =>
    have hparse : Payload.parse text source = .error e := by
      rw [parse_eq_bind, hbody]
      rfl
    obtain ⟨hnone, hopen⟩ := h e hparse
    rw [declaredBody] at hbody
    split at hbody
    · exact absurd (congrArg ParseError.flaw (Except.error.inj hbody)).symm hnone
    · simp only at hbody
      split at hbody
      · exact absurd (congrArg ParseError.flaw (Except.error.inj hbody)).symm hopen
      · simp at hbody

/-- **Only the declaration counts.** If no head of a declaration starts in the text
before it, and the declaration is there and is closed, then texts before and behind
it change nothing: the same fields are read, or the same flaw is found, as many
lines further down as there are line feeds before it. -/
theorem parse_surrounded {lead text : String} (tail source : String)
    (hlead : startsHead lead.toList text.toList = false)
    (hthere : ∀ e, Payload.parse text source = .error e →
      e.flaw ≠ .noDeclaration ∧ e.flaw ≠ .openDeclaration) :
    Payload.parse (lead ++ text ++ tail) source =
      ((Payload.parse text source).mapError (·.shift (lineFeeds lead.toList))).map
        (·.shift (lineFeeds lead.toList)) := by
  obtain ⟨body, firstLine, hbody⟩ := exists_declaredBody hthere
  obtain ⟨rest, hrest, -, -⟩ := declaredBody_eq_ok hbody
  have hbrace : '\x7b' ∈ text.toList := by
    obtain ⟨before, hmem, hbefore, -⟩ := afterHead?_replace hrest
    rw [hbefore]
    exact List.mem_append_left _ hmem
  -- what stands behind the declaration goes first, and then what stands before it
  have hbehind : Payload.parse (text ++ tail) source = Payload.parse text source := by
    rw [parse_eq_bind, parse_eq_bind, String.toList_append, hbody,
      declaredBody_append_right hbody]
  have hlead' : startsHead lead.toList (text ++ tail).toList = false := by
    rw [String.toList_append]
    exact startsHead_append_right hbrace hlead tail.toList
  rw [String.append_assoc, parse_append source hlead', hbehind]
  rfl

/-- A repeated field, between texts with open braces, quotes and comments. -/
theorem parse_surrounded_repeated :
    Payload.parse ("type a = \x7b // '\n" ++ "export type typePayload = \x7b\nid: a\nid: b\x7d" ++
        "\x7d\x7b ` /*\nexport type typePayload = \x7bx: y\x7d") "t" =
      .error ⟨.repeated "id" 3, "t", some 4, some "id: b"⟩ := by
  have hparse : Payload.parse "export type typePayload = \x7b\nid: a\nid: b\x7d" "t" =
      .error ⟨.repeated "id" 2, "t", some 3, some "id: b"⟩ := by rfl
  rw [parse_surrounded _ "t" (by decide) (by simp [hparse]), hparse]
  rfl

end Stencil.Payload
