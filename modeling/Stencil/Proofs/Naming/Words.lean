import Stencil.Naming.ModuleName
import Stencil.Proofs.Text.Ascii
import Stencil.Proofs.Text.Blank
import Stencil.Proofs.Text.Pieces

/-!
# Stencil — the characters of derived names

The words of a valid module name are made of ASCII letters and digits, and
changing case stays among them. So do the names put together from words
without a separator.

Main results:

* `camelCase_alphanum`, `pascalCase_alphanum`, `kebabCase_chars`,
  `constantCase_chars` — the characters of a text in one of the cases;
* `alphanum_file`, `alphanum_className` — those of a module's names.
-/

namespace Stencil.Naming

open Stencil.Text

/-! ## Case within ASCII -/

private theorem alphanum_toLower {c : Char} (h : c.isAlphanum = true) :
    c.toLower.isAlphanum = true :=
  of_ascii (P := fun c => c.isAlphanum = true → c.toLower.isAlphanum = true) (by decide)
    (toNat_lt_of_isAlphanum h) h

private theorem alphanum_toUpper {c : Char} (h : c.isAlphanum = true) :
    c.toUpper.isAlphanum = true :=
  of_ascii (P := fun c => c.isAlphanum = true → c.toUpper.isAlphanum = true) (by decide)
    (toNat_lt_of_isAlphanum h) h

theorem lowerAfter_eq_map {cs : List Char} (h : ∀ c ∈ cs, c.isAlphanum = true)
    (before : List Char) : lowerAfter before cs = cs.map Char.toLower := by
  induction cs generalizing before with
  | nil => rfl
  | cons c rest ih =>
    have hc : c.isAlphanum = true := h c (by simp)
    -- the one letter whose lower case depends on where it stands
    have hsigma : c ≠ 'Σ' := by
      rintro rfl
      exact absurd hc (by decide)
    rw [lowerAfter, if_neg hsigma, lowerChar, if_pos (toNat_lt_of_isAlphanum hc),
      ih fun d hd => h d (by simp [hd])]
    rfl

theorem capitalize_cons {c : Char} {rest : List Char} (h : ∀ d ∈ c :: rest, d.isAlphanum = true) :
    capitalize (c :: rest) = c.toUpper :: rest.map Char.toLower := by
  have hc : c.isAlphanum = true := h c (by simp)
  rw [capitalize, titleChar, if_pos (toNat_lt_of_isAlphanum hc),
    lowerAfter_eq_map fun d hd => h d (by simp [hd])]
  rfl

theorem upper_eq_map {cs : List Char} (h : ∀ c ∈ cs, c.toNat < 0x80) :
    upper cs = cs.map Char.toUpper := by
  rw [upper, List.map_eq_flatMap]
  exact List.flatMap_congr fun c hc => by rw [upperChar, if_pos (h c hc)]

theorem capitalize_alphanum {cs : List Char} (h : ∀ c ∈ cs, c.isAlphanum = true) :
    ∀ c ∈ capitalize cs, c.isAlphanum = true := by
  cases cs with
  | nil => simp [capitalize]
  | cons c rest =>
    rw [capitalize_cons h, List.forall_mem_cons, List.forall_mem_map]
    exact ⟨alphanum_toUpper (h c (by simp)), fun d hd => alphanum_toLower (h d (by simp [hd]))⟩

/-! ## Words -/

theorem mem_spaceHumps {cs : List Char} {c : Char} (h : c ∈ spaceHumps cs) : c ∈ cs ∨ c = ' ' := by
  -- a space is all that is ever put in
  fun_induction spaceHumps cs with
  | case1 => simp at h
  | case2 c' => exact .inl h
  | case3 c' d rest _ ih =>
    rcases List.mem_cons.mp h with rfl | h
    · exact .inl (by simp)
    · rcases List.mem_cons.mp h with rfl | h
      · exact .inr rfl
      · exact (ih h).imp_left (List.mem_cons_of_mem c')
  | case4 c' d rest _ ih =>
    rcases List.mem_cons.mp h with rfl | h
    · exact .inl (by simp)
    · exact (ih h).imp_left (List.mem_cons_of_mem c')

/-- The characters of a run are in the text and in the class. -/
theorem mem_runs {p : Char → Bool} {cs run : List Char} (hrun : run ∈ runs p cs) {c : Char}
    (hc : c ∈ run) : c ∈ cs ∧ p c = true := by
  have hcons : ∀ {d : Char} {rest : List Char}, c ∈ rest ∧ p c = true →
      c ∈ d :: rest ∧ p c = true :=
    fun h => ⟨List.mem_cons_of_mem _ h.1, h.2⟩
  -- a character opens a run, goes to the front of the next one, or belongs to none
  fun_induction runs p cs generalizing run with
  | case1 => simp at hrun
  | case2 d hd =>
    obtain rfl := List.mem_singleton.mp hrun
    obtain rfl := List.mem_singleton.mp hc
    exact ⟨by simp, hd⟩
  | case3 d hd d' tail _ hruns _ =>
    simp only [hruns] at hrun
    obtain rfl := List.mem_singleton.mp hrun
    obtain rfl := List.mem_singleton.mp hc
    exact ⟨by simp, hd⟩
  | case4 d hd d' tail hd' l ls hruns ih =>
    simp only [hruns] at hrun ih
    rcases List.mem_cons.mp hrun with rfl | hrun
    · rcases List.mem_cons.mp hc with rfl | hc
      · exact ⟨by simp, hd⟩
      · exact hcons (ih (by simp) hc)
    · exact hcons (ih (by simp [hrun]) hc)
  | case5 d hd d' tail _ ih =>
    rcases List.mem_cons.mp hrun with rfl | hrun
    · obtain rfl := List.mem_singleton.mp hc
      exact ⟨by simp, hd⟩
    · exact hcons (ih hrun hc)
  | case6 d tail _ ih => exact hcons (ih hrun hc)

theorem toNat_lt_of_isNameChar {c : Char} (h : isNameChar c = true) : c.toNat < 0x80 := by
  simp only [isNameChar, Bool.or_eq_true, beq_iff_eq] at h
  rcases h with (h | rfl) | rfl
  · exact toNat_lt_of_isAlphanum h
  · decide
  · decide

/-- A name character that separates no words is a letter or a digit. -/
theorem isAlphanum_eq_not_isSeparator {c : Char} (h : isNameChar c = true) :
    c.isAlphanum = !isSeparator c :=
  of_ascii (P := fun c => isNameChar c = true → c.isAlphanum = !isSeparator c) (by decide)
    (toNat_lt_of_isNameChar h) h

/-- The stretches of a name that its words are made of. -/
theorem stretches_alphanum {name : List Char} (h : ∀ c ∈ name, isNameChar c = true) :
    ∀ run ∈ runs (fun c => !isSeparator c) (spaceHumps (trim name)), ∀ c ∈ run,
      c.isAlphanum = true := by
  intro run hrun c hc
  obtain ⟨hmem, hclass⟩ := mem_runs hrun hc
  rcases mem_spaceHumps hmem with hmem | rfl
  · rw [isAlphanum_eq_not_isSeparator (h c (mem_of_mem_trim hmem)), hclass]
  · exact absurd hclass (by decide)

theorem words_eq {name : List Char} (h : ∀ c ∈ name, isNameChar c = true) :
    words name =
      (runs (fun c => !isSeparator c) (spaceHumps (trim name))).map (·.map Char.toLower) :=
  List.map_congr_left fun run hrun => lowerAfter_eq_map (stretches_alphanum h run hrun) []

/-- The words of a name of name characters are letters and digits. -/
theorem words_alphanum {name : List Char} (h : ∀ c ∈ name, isNameChar c = true) :
    ∀ w ∈ words name, ∀ c ∈ w, c.isAlphanum = true := by
  rw [words_eq h, List.forall_mem_map]
  intro run hrun
  rw [List.forall_mem_map]
  exact fun c hc => alphanum_toLower (stretches_alphanum h run hrun c hc)

theorem pascalCase_alphanum {name : String} (h : ∀ c ∈ name.toList, isNameChar c = true) :
    ∀ c ∈ (pascalCase name).toList, c.isAlphanum = true := by
  rw [pascalCase, String.toList_ofList, pascal]
  intro c hc
  obtain ⟨w, hw, hc⟩ := List.mem_flatMap.mp hc
  exact capitalize_alphanum (words_alphanum h w hw) c hc

/-- The words of a constant have an underscore between them. -/
theorem constantCase_chars {name : String} (h : ∀ c ∈ name.toList, isNameChar c = true) :
    ∀ c ∈ (constantCase name).toList, c.isAlphanum = true ∨ c = '_' := by
  rw [constantCase, String.toList_ofList, constant, upper]
  intro c hc
  obtain ⟨d, hd, hc⟩ := List.mem_flatMap.mp hc
  rw [snake, joinWords] at hd
  rcases mem_of_mem_intercalate hd with hd | ⟨w, hw, hd⟩
  · obtain rfl := List.mem_singleton.mp hd
    exact .inr (List.mem_singleton.mp hc)
  · have hdigit := words_alphanum h w hw d hd
    rw [upperChar, if_pos (toNat_lt_of_isAlphanum hdigit), List.mem_singleton] at hc
    exact .inl (hc ▸ alphanum_toUpper hdigit)

theorem kebabCase_chars {name : String} (h : ∀ c ∈ name.toList, isNameChar c = true) :
    ∀ c ∈ (kebabCase name).toList, c.isAlphanum = true ∨ c = '-' := by
  rw [kebabCase, String.toList_ofList, kebab]
  intro c hc
  rcases mem_of_mem_intercalate hc with hc | ⟨w, hw, hc⟩
  · exact .inr (List.mem_singleton.mp hc)
  · exact .inl (words_alphanum h w hw c hc)

theorem camelCase_alphanum {name : String} (h : ∀ c ∈ name.toList, isNameChar c = true) :
    ∀ c ∈ (camelCase name).toList, c.isAlphanum = true := by
  rw [camelCase, String.toList_ofList, camel]
  have hwords := words_alphanum h
  -- the first word stays in lower case, the others are capitalized
  split
  · simp
  · rename_i w ws hsplit
    rw [hsplit] at hwords
    intro c hc
    rcases List.mem_append.mp hc with hc | hc
    · exact hwords w (by simp) c hc
    · obtain ⟨v, hv, hc⟩ := List.mem_flatMap.mp hc
      exact capitalize_alphanum (hwords v (by simp [hv])) c hc

/-! ## The names of a module -/

section Names

variable {name : String}

theorem isNameChar_strip (h : ∀ c ∈ name.toList, isNameChar c = true) :
    ∀ c ∈ (strip name).toList, isNameChar c = true := by
  intro c hc
  rw [strip, String.toList_ofList] at hc
  exact h c (mem_of_mem_trim hc)

theorem alphanum_file (h : ∀ c ∈ name.toList, isNameChar c = true) :
    ∀ c ∈ (moduleNames name).file.toList, c.isAlphanum = true :=
  camelCase_alphanum (isNameChar_strip h)

theorem alphanum_className (h : ∀ c ∈ name.toList, isNameChar c = true) :
    ∀ c ∈ (moduleNames name).className.toList, c.isAlphanum = true :=
  pascalCase_alphanum (isNameChar_strip h)

end Names

end Stencil.Naming
