import Stencil.Identifier
import Stencil.Proofs.Text.Ascii
import Stencil.Proofs.Text.Blank

/-!
# Stencil — the characters of identifiers

What an identifier starts with it may also go on with, so every character of an
identifier is of one class. A name that is given may have a line feed besides.
-/

namespace Stencil

open Stencil.Text

theorem isIdentifierPart_of_start {c : Char} (hc : isIdentifierStart c = true) :
    isIdentifierPart c = true := by
  simp only [isIdentifierStart, Bool.or_eq_true] at hc
  simp only [isIdentifierPart, Char.isAlphanum, Bool.or_eq_true]
  exact hc.imp_left fun h => h.imp_left .inl

theorem isIdentifierPart_of_mem {cs : List Char} (h : isIdentifier cs = true) :
    ∀ c ∈ cs, isIdentifierPart c = true := by
  cases cs with
  | nil => simp
  | cons c rest =>
    simp only [isIdentifier, Bool.and_eq_true, List.all_eq_true] at h
    intro d hd
    rcases List.mem_cons.mp hd with rfl | hd
    · exact isIdentifierPart_of_start h.1
    · exact h.2 d hd

/-- Names are of ASCII characters. -/
theorem toNat_lt_of_isIdentifierPart {c : Char} (hc : isIdentifierPart c = true) :
    c.toNat < 0x80 := by
  simp only [isIdentifierPart, Bool.or_eq_true, beq_iff_eq] at hc
  rcases hc with (h | rfl) | rfl
  · exact toNat_lt_of_isAlphanum h
  · decide
  · decide

theorem isBlank_of_isIdentifierPart {c : Char} (hc : isIdentifierPart c = true) :
    isBlank c = false :=
  of_ascii (P := fun c => isIdentifierPart c = true → isBlank c = false) (by decide)
    (toNat_lt_of_isIdentifierPart hc) hc

theorem ne_of_isIdentifierPart {c d : Char} (hc : isIdentifierPart c = true)
    (hd : isIdentifierPart d = false) : c ≠ d := by
  rintro rfl
  rw [hc] at hd
  exact absurd hd (by decide)

/-- No other character stands in an identifier. -/
theorem notMem_of_isIdentifier {cs : List Char} (h : isIdentifier cs = true) {c : Char}
    (hc : isIdentifierPart c = false) : c ∉ cs :=
  fun hmem => ne_of_isIdentifierPart (isIdentifierPart_of_mem h c hmem) hc rfl

theorem exists_cons_of_isIdentifier {cs : List Char} (h : isIdentifier cs = true) :
    ∃ c rest, cs = c :: rest ∧ isIdentifierPart c = true := by
  cases cs with
  | nil => simp [isIdentifier] at h
  | cons c rest => exact ⟨c, rest, rfl, isIdentifierPart_of_mem h c (by simp)⟩

theorem exists_concat_of_isIdentifier {cs : List Char} (h : isIdentifier cs = true) :
    ∃ init c, cs = init ++ [c] ∧ isIdentifierPart c = true := by
  obtain rfl | ⟨init, c, rfl⟩ := cs.eq_nil_or_concat
  · simp [isIdentifier] at h
  · rw [List.concat_eq_append] at h ⊢
    exact ⟨init, c, rfl, isIdentifierPart_of_mem h c (by simp)⟩

/-- An identifier may go on with any parts. -/
theorem isIdentifier_append {a b : List Char} (ha : isIdentifier a = true)
    (hb : ∀ c ∈ b, isIdentifierPart c = true) : isIdentifier (a ++ b) = true := by
  cases a with
  | nil => simp [isIdentifier] at ha
  | cons c rest =>
    simp only [isIdentifier, Bool.and_eq_true, List.all_eq_true] at ha
    simp only [isIdentifier, List.cons_append, Bool.and_eq_true, List.all_eq_true]
    refine ⟨ha.1, fun d hd => ?_⟩
    rcases List.mem_append.mp hd with hd | hd
    · exact ha.2 d hd
    · exact hb d hd

/-- There is nothing to trim about an identifier. -/
theorem trim_of_isIdentifier {cs : List Char} (h : isIdentifier cs = true) : trim cs = cs := by
  have hchars : ∀ c ∈ cs, isBlank c = false :=
    fun c hc => isBlank_of_isIdentifierPart (isIdentifierPart_of_mem h c hc)
  exact trimWhere_eq_self (fun c hc => hchars c (List.mem_of_head? hc))
    fun c hc => hchars c (List.mem_of_getLast? hc)

/-- A declarable name has a line feed besides, if anything. -/
theorem char_of_isDeclarable {name : String} (h : isDeclarable name = true) :
    ∀ c ∈ name.toList, isIdentifierPart c = true ∨ c = '\n' := by
  have hpart := isIdentifierPart_of_mem h
  intro c hc
  rw [dropFinalLineFeed] at hpart
  split at hpart
  · rename_i hlast
    obtain ⟨front, hfront⟩ := List.getLast?_eq_some_iff.mp hlast
    rw [hfront, List.mem_append, List.mem_singleton] at hc
    rw [hfront, List.dropLast_concat] at hpart
    exact hc.imp_left (hpart c)
  · exact .inl (hpart c hc)

/-- An identifier does not end in a line feed. -/
theorem isDeclarable_of_isIdentifier {name : String} (h : isIdentifier name.toList = true) :
    isDeclarable name = true := by
  have hend : name.toList.getLast? ≠ some '\n' := by
    intro hlast
    have hpart := isIdentifierPart_of_mem h _ (List.mem_of_getLast? hlast)
    exact absurd hpart (by decide)
  rw [isDeclarable, dropFinalLineFeed, if_neg hend, h]

end Stencil
