import Stencil.Proofs.Payload.Scan
import Stencil.Proofs.Payload.Sweep
import Stencil.Proofs.Region.Converted

/-!
# Stencil — a declaration with other line ends

With a carriage return before every line feed a text is read as it is without. The
carriage return is a blank, so it makes no difference to the head of a declaration
and to the trimmed lines of its body. In the search for the closing brace it
changes nothing but one thing: a backslash at the end of a line takes the carriage
return with it, and the line feed is left, which a literal passes over as well.

Main results:

* `dropHead_withCrlf`, `body?_withCrlf`, `codeLines_withCrlf` — each stage of
  reading;
* `parse_withCrlf` — all of them.
-/

namespace Stencil.Payload

open Stencil.Text
open Stencil.Region (withCrlf)

section Converted

variable {c : Char} {cs : List Char}

theorem withCrlf_lineFeed (cs : List Char) :
    withCrlf ('\n' :: cs) = '\r' :: '\n' :: withCrlf cs :=
  rfl

theorem withCrlf_cons (hc : c ≠ '\n') (cs : List Char) : withCrlf (c :: cs) = c :: withCrlf cs := by
  rw [withCrlf, List.flatMap_cons, if_neg hc]
  rfl

theorem withCrlf_of_notMem (h : '\n' ∉ cs) : withCrlf cs = cs := by
  induction cs with
  | nil => rfl
  | cons c cs ih =>
    obtain ⟨hc, hcs⟩ := not_or.mp (mt List.mem_cons.mpr h)
    rw [withCrlf_cons (Ne.symm hc), ih hcs]

/-- The number of lines stays. -/
theorem lineFeeds_withCrlf (cs : List Char) : lineFeeds (withCrlf cs) = lineFeeds cs := by
  induction cs with
  | nil => rfl
  | cons c cs ih =>
    rw [lineFeeds, lineFeeds] at ih ⊢
    by_cases hc : c = '\n'
    · subst hc
      rw [withCrlf_lineFeed, List.count_cons_of_ne (by decide), List.count_cons_self, ih,
        List.count_cons_self]
    · rw [withCrlf_cons hc, List.count_cons_of_ne hc, ih, List.count_cons_of_ne hc]

/-! ## The head -/

/-- A word without line ends comes first in both texts, or in none. -/
theorem prefix_withCrlf_iff {word : List Char} (hcr : '\r' ∉ word) (hlf : '\n' ∉ word) :
    word <+: withCrlf cs ↔ word <+: cs := by
  induction word generalizing cs with
  | nil => simp
  | cons w word ih =>
    simp only [List.mem_cons, not_or] at hcr hlf
    cases cs with
    | nil => simp [withCrlf]
    | cons c cs =>
      by_cases hc : c = '\n'
      · subst hc
        simp [withCrlf_lineFeed, List.cons_prefix_cons, Ne.symm hcr.1, Ne.symm hlf.1]
      · rw [withCrlf_cons hc, List.cons_prefix_cons, List.cons_prefix_cons, ih hcr.2 hlf.2]

theorem dropWord_withCrlf {word : String} (hcr : '\r' ∉ word.toList) (hlf : '\n' ∉ word.toList) :
    dropWord word (withCrlf cs) = (dropWord word cs).map withCrlf := by
  by_cases hprefix : word.toList <+: cs
  · obtain ⟨rest, rfl⟩ := hprefix
    rw [Region.withCrlf_append, withCrlf_of_notMem hlf, dropWord_append, dropWord_append]
    rfl
  · have hprefix' := mt (prefix_withCrlf_iff hcr hlf).mp hprefix
    rw [← List.isPrefixOf_iff_prefix] at hprefix hprefix'
    rw [dropWord, if_neg hprefix', dropWord, if_neg hprefix]
    rfl

/-- Both line ends are blanks. -/
theorem dropWhile_withCrlf (cs : List Char) :
    (withCrlf cs).dropWhile isBlank = withCrlf (cs.dropWhile isBlank) := by
  induction cs with
  | nil => rfl
  | cons c cs ih =>
    by_cases hc : c = '\n'
    · subst hc
      rw [withCrlf_lineFeed, List.dropWhile_cons_of_pos (by decide),
        List.dropWhile_cons_of_pos (by decide), List.dropWhile_cons_of_pos (by decide), ih]
    · rw [withCrlf_cons hc, List.dropWhile_cons, List.dropWhile_cons]
      split
      · exact ih
      · rw [withCrlf_cons hc]

theorem dropBlanks_withCrlf (cs : List Char) :
    dropBlanks (withCrlf cs) = (dropBlanks cs).map withCrlf := by
  cases cs with
  | nil => rfl
  | cons c cs =>
    by_cases hc : c = '\n'
    · subst hc
      rw [withCrlf_lineFeed, dropBlanks, if_pos (by decide), List.dropWhile_cons_of_pos (by decide),
        dropWhile_withCrlf, dropBlanks, if_pos (by decide)]
      rfl
    · rw [withCrlf_cons hc, dropBlanks, dropBlanks, dropWhile_withCrlf]
      split <;> rfl

/-- **The head of a declaration** may be written over several lines. -/
theorem dropHead_withCrlf (cs : List Char) :
    dropHead (withCrlf cs) = (dropHead cs).map withCrlf := by
  have hword : ∀ word ∈ ["export", "type", payloadTypeName, "=", "\x7b"],
      '\r' ∉ word.toList ∧ '\n' ∉ word.toList := by decide
  have hdrop : ∀ word ∈ ["export", "type", payloadTypeName, "=", "\x7b"], ∀ cs,
      dropWord word (withCrlf cs) = (dropWord word cs).map withCrlf := fun word hmem cs =>
    dropWord_withCrlf (hword word hmem).1 (hword word hmem).2
  -- each stage leaves the rest converted to the next one
  simp only [dropHead, Option.bind_eq_bind, hdrop, List.mem_cons, true_or, or_true,
    dropBlanks_withCrlf, dropWhile_withCrlf, Option.bind_map, Option.map_bind, Function.comp_def]

/-- The first head of the text is the first one of the converted text. -/
theorem afterHead?_withCrlf (cs : List Char) :
    afterHead? (withCrlf cs) = (afterHead? cs).map withCrlf := by
  induction cs with
  | nil => rfl
  | cons c cs ih =>
    have hhead := dropHead_withCrlf (c :: cs)
    by_cases hc : c = '\n'
    · -- no head starts at a line end
      subst hc
      have hnone : ∀ rest : List Char, dropHead ('\r' :: rest) = none ∧
          dropHead ('\n' :: rest) = none := by simp [dropHead, dropWord]
      rw [withCrlf_lineFeed, afterHead?, (hnone _).1, afterHead?, (hnone _).2, ih, afterHead?,
        (hnone _).2]
    · rw [withCrlf_cons hc] at hhead ⊢
      rw [afterHead?, hhead, afterHead?]
      cases dropHead (c :: cs) with
      | some rest => rfl
      | none => exact ih

/-! ## The closing brace -/

/-- A mark of a comment stands on one line. -/
theorem opensComment_withCrlf (c : Char) (cs : List Char) :
    opensComment (c :: withCrlf cs) = opensComment (c :: cs) := by
  cases cs with
  | nil => rfl
  | cons d cs =>
    by_cases hd : d = '\n'
    · subst hd
      simp [withCrlf_lineFeed, opensComment]
    · rw [withCrlf_cons hd]
      rfl

theorem closesComment_withCrlf (c : Char) (cs : List Char) :
    closesComment (c :: withCrlf cs) = closesComment (c :: cs) := by
  cases cs with
  | nil => rfl
  | cons d cs =>
    by_cases hd : d = '\n'
    · subst hd
      simp [withCrlf_lineFeed, closesComment]
    · rw [withCrlf_cons hd]
      rfl

namespace Position

variable {p : Position}

theorem after_withCrlf (p : Position) (c : Char) (cs : List Char) :
    p.after c (withCrlf cs) = p.after c cs := by
  have hhead : opensComment (c :: cs) = true →
      (withCrlf cs).head? = cs.head? := by
    intro hopens
    obtain ⟨-, rest, rfl | rfl⟩ := opensComment_iff.mp hopens <;> rfl
  rw [Position.after, Position.after, opensComment_withCrlf, closesComment_withCrlf]
  by_cases hopens : opensComment (c :: cs) = true
  · rw [hhead hopens]
  · simp only [hopens, Bool.false_eq_true, if_false]

/-- **A carriage return before a line feed** does not change where the search
stands behind both. -/
theorem after_carriageReturn (h : p.Sound) (cs cs' : List Char) :
    (p.after '\r' ('\n' :: cs')).after '\n' cs' = p.after '\n' cs := by
  have hopens : ∀ c, c ≠ '/' → ∀ rest, opensComment (c :: rest) = false := fun _ hc _ =>
    opensComment_of_ne hc
  have hcloses : ∀ c, c ≠ '*' → ∀ rest, closesComment (c :: rest) = false := fun _ hc _ =>
    closesComment_of_ne hc
  obtain ⟨region, isPaired, depth⟩ := p
  cases region with
  | literal q =>
    -- a backslash takes one of the two characters with it, and none of them is a quote
    have hcr : '\r' ≠ q := (ne_of_isQuote (h.quote q rfl) (by decide)).symm
    have hlf : '\n' ≠ q := (ne_of_isQuote (h.quote q rfl) (by decide)).symm
    cases isPaired <;> simp [Position.after, hcr, hlf]
  | lineComment =>
    obtain rfl : isPaired = false := h.unpaired rfl
    simp [Position.after]
  | code => cases isPaired <;> simp [Position.after, hopens, isQuote]
  | blockComment => cases isPaired <;> simp [Position.after, hcloses]

/-- **The search for the closing brace** ends at the same brace. -/
theorem seek_withCrlf (h : p.Sound) (cs : List Char) :
    p.seek (withCrlf cs) = (p.seek cs).map withCrlf := by
  induction cs generalizing p with
  | nil => rfl
  | cons c cs ih =>
    by_cases hc : c = '\n'
    · subst hc
      have h' := h.after '\r' ('\n' :: withCrlf cs)
      rw [withCrlf_lineFeed, seek_cons h (by simp), seek_cons h' (by simp),
        after_carriageReturn h cs, ih (h.after '\n' cs), seek_cons h (by simp), Option.map_map,
        Option.map_map, Option.map_map]
      rfl
    · rw [withCrlf_cons hc]
      by_cases hend : c = '\x7d' → p ≠ start
      · rw [seek_cons h hend, seek_cons h hend, after_withCrlf, ih (h.after c cs), Option.map_map,
          Option.map_map]
        exact Option.map_congr fun rest _ => (withCrlf_cons hc rest).symm
      · obtain ⟨rfl, rfl⟩ : c = '\x7d' ∧ p = start := by simpa using hend
        rfl

end Position

theorem body?_withCrlf (cs : List Char) : body? (withCrlf cs) = (body? cs).map withCrlf := by
  have hseek := Position.seek_withCrlf Position.sound_start cs
  rwa [Position.seek_of_unpaired rfl, Position.seek_of_unpaired rfl] at hseek

/-! ## The lines of the body -/

/-- A line of the converted text may have a carriage return at its end. -/
def SameLine (raw raw' : List Char) : Prop :=
  raw' = raw ∨ raw' = raw ++ ['\r']

theorem SameLine.trim_eq {raw raw' : List Char} (h : SameLine raw raw') : trim raw' = trim raw := by
  rcases h with rfl | rfl
  · rfl
  · exact trimWhere_append_right (fun c hc => List.mem_singleton.mp hc ▸ rfl) raw

theorem pieces_withCrlf (cs : List Char) :
    List.Forall₂ SameLine (pieces '\n' cs) (pieces '\n' (withCrlf cs)) := by
  induction cs with
  | nil => exact .cons (.inl rfl) .nil
  | cons c cs ih =>
    by_cases hc : c = '\n'
    · subst hc
      rw [withCrlf_lineFeed, pieces_sep_cons, pieces_cons (by decide) (pieces_sep_cons _ _)]
      exact .cons (.inr rfl) ih
    · obtain ⟨raw, raws, hraws⟩ := List.exists_cons_of_ne_nil (pieces_ne_nil '\n' cs)
      obtain ⟨raw', raws', hraws'⟩ := List.exists_cons_of_ne_nil (pieces_ne_nil '\n' (withCrlf cs))
      rw [hraws, hraws'] at ih
      obtain ⟨hraw, hrest⟩ := List.forall₂_cons.mp ih
      rw [withCrlf_cons hc, pieces_cons hc hraws, pieces_cons hc hraws']
      refine .cons ?_ hrest
      rcases hraw with rfl | rfl
      · exact .inl rfl
      · exact .inr rfl

theorem codeLinesFrom_sameLine {raws raws' : List (List Char)}
    (h : List.Forall₂ SameLine raws raws') (number : Nat) (inComment : Bool) :
    codeLinesFrom number inComment raws' = codeLinesFrom number inComment raws := by
  induction h generalizing number inComment with
  | nil => rfl
  | cons hraw _ ih => simp only [codeLinesFrom, hraw.trim_eq, ih]

/-- **The code lines of a body** are trimmed. -/
theorem codeLines_withCrlf (body : List Char) (firstLine : Nat) :
    codeLines (withCrlf body) firstLine = codeLines body firstLine :=
  codeLinesFrom_sameLine (pieces_withCrlf body) firstLine false

end Converted

/-! ## The whole text -/

theorem declaredBody_withCrlf (source : String) (text : List Char) :
    declaredBody source (withCrlf text) =
      (declaredBody source text).map fun found => (withCrlf found.1, found.2) := by
  rw [declaredBody, declaredBody, afterHead?_withCrlf]
  cases afterHead? text with
  | none => rfl
  | some rest =>
    simp only [Option.map_some, lineFeeds_withCrlf, body?_withCrlf]
    cases body? rest <;> rfl

/-- **Line ends make no difference**: with a carriage return before every line feed
the same fields are read, or the same flaw is found on the same line. -/
theorem parse_withCrlf (text source : String) :
    Payload.parse (String.ofList (withCrlf text.toList)) source = Payload.parse text source := by
  rw [parse_eq_bind, parse_eq_bind, String.toList_ofList, declaredBody_withCrlf]
  cases declaredBody source text.toList with
  | error e => rfl
  | ok found => simp only [Except.map, Except.bind, codeLines_withCrlf]

end Stencil.Payload
