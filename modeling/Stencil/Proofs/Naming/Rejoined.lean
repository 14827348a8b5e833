import Stencil.Proofs.Naming.Shapes
import Stencil.Proofs.Request.Valid

/-!
# Stencil — words joined and found again

A casing that sets a separator between the words of a name loses nothing but the
capitals: the words are found again in it, whatever the separator is. So the
casings with separators tell the same names apart, a casing of a casing is the
casing of the name, and names that share one of them share every other casing.

Main results:

* `runs_intercalate` — stretches with a separator between them are the longest
  ones;
* `words_joinWords` — the words of joined words;
* `casings_identify` — which casings of two module names are the same.
-/

namespace Stencil.Text

/-! ## Runs -/

section Runs

variable {p : Char → Bool} {separator : Char} {run : List Char}

/-- A character of the class goes to the front of the run behind it. -/
theorem runs_cons_of_runs {c : Char} {rest r : List Char} {rs : List (List Char)}
    (hc : p c = true) (hrest : ∀ d ∈ rest.head?, p d = true) (hruns : runs p rest = r :: rs) :
    runs p (c :: rest) = (c :: r) :: rs := by
  cases rest with
  | nil => simp [runs] at hruns
  | cons d tail =>
    have hd : p d = true := hrest d rfl
    rw [runs, if_pos hc]
    simp only [hd, if_true, hruns]

theorem runs_self (hne : run ≠ []) (hrun : ∀ c ∈ run, p c = true) : runs p run = [run] := by
  induction run with
  | nil => exact absurd rfl hne
  | cons c run ih =>
    have hc : p c = true := hrun c (by simp)
    cases run with
    | nil => rw [runs, if_pos hc]
    | cons d run =>
      have htail : ∀ e ∈ d :: run, p e = true := fun e he => hrun e (List.mem_cons_of_mem c he)
      exact runs_cons_of_runs hc (fun e he => htail e (List.mem_of_head? he))
        (ih (by simp) htail)

/-- The first run ends at a separator. -/
theorem runs_append_sep (hne : run ≠ []) (hrun : ∀ c ∈ run, p c = true)
    (hseparator : p separator = false) (rest : List Char) :
    runs p (run ++ separator :: rest) = run :: runs p rest := by
  have hpassed : runs p (separator :: rest) = runs p rest := by
    rw [runs.eq_def]
    simp [hseparator]
  -- on the run: only its last character meets the separator
  induction run with
  | nil => exact absurd rfl hne
  | cons c run ih =>
    have hc : p c = true := hrun c (by simp)
    cases run with
    | nil =>
      show runs p (c :: separator :: rest) = [c] :: runs p rest
      rw [runs, if_pos hc]
      simp only [hseparator, Bool.false_eq_true, if_false, hpassed]
    | cons d run =>
      have htail : ∀ e ∈ d :: run, p e = true := fun e he => hrun e (List.mem_cons_of_mem c he)
      exact runs_cons_of_runs hc (fun e he => htail e (by simp_all)) (ih (by simp) htail)

/-- Stretches of the class with a separator between them are the runs of the text. -/
theorem runs_intercalate {ws : List (List Char)} (hseparator : p separator = false)
    (hws : ∀ w ∈ ws, w ≠ [] ∧ ∀ c ∈ w, p c = true) :
    runs p ([separator].intercalate ws) = ws := by
  induction ws with
  | nil => rfl
  | cons w ws ih =>
    obtain ⟨hne, hw⟩ := hws w (by simp)
    cases ws with
    | nil => simpa [List.intercalate] using runs_self hne hw
    | cons v ws =>
      rw [List.intercalate_cons_cons, List.append_assoc, List.singleton_append,
        runs_append_sep hne hw hseparator,
        ih fun u hu => hws u (List.mem_cons_of_mem w hu)]

end Runs

end Stencil.Text

namespace Stencil.Naming

open Stencil.Text

/-! ## The words of joined words -/

/-- A text without capitals has no humps. -/
theorem spaceHumps_eq_self {cs : List Char} (h : ∀ c ∈ cs, c.isUpper = false) :
    spaceHumps cs = cs := by
  fun_induction spaceHumps cs with
  | case1 => rfl
  | case2 => rfl
  | case3 c d rest hump _ =>
    have hd : d.isUpper = false := h d (by simp)
    simp [hd] at hump
  | case4 c d rest _ ih => rw [ih fun e he => h e (List.mem_cons_of_mem c he)]

section Small

variable {c : Char} (h : isSmall c = true)

include h

theorem isAlphanum_of_isSmall : c.isAlphanum = true := by
  simp only [isSmall, Bool.or_eq_true] at h
  rcases h with hlower | hdigit
  · have halpha : c.isAlpha = true := Bool.or_eq_true_iff.mpr (.inr hlower)
    simp [Char.isAlphanum, halpha]
  · simp [Char.isAlphanum, hdigit]

theorem isUpper_of_isSmall : c.isUpper = false :=
  of_ascii (P := fun c => isSmall c = true → c.isUpper = false) (by decide)
    (toNat_lt_of_isAlphanum (isAlphanum_of_isSmall h)) h

theorem toLower_of_isSmall : c.toLower = c :=
  of_ascii (P := fun c => isSmall c = true → c.toLower = c) (by decide)
    (toNat_lt_of_isAlphanum (isAlphanum_of_isSmall h)) h

theorem toLower_toUpper_of_isSmall : c.toUpper.toLower = c :=
  of_ascii (P := fun c => isSmall c = true → c.toUpper.toLower = c) (by decide)
    (toNat_lt_of_isAlphanum (isAlphanum_of_isSmall h)) h

theorem isSeparator_of_isSmall : isSeparator c = false :=
  of_ascii (P := fun c => isSmall c = true → isSeparator c = false) (by decide)
    (toNat_lt_of_isAlphanum (isAlphanum_of_isSmall h)) h

end Small

/-- Words as a name has them: none is empty, and all are in small letters and digits. -/
def AreWords (ws : List (List Char)) : Prop :=
  ∀ w ∈ ws, w ≠ [] ∧ ∀ c ∈ w, isSmall c = true

/-- The characters that casings set between words. -/
def IsJoint (separator : Char) : Prop :=
  separator = '-' ∨ separator = '_'

section Joined

variable {separator : Char} {ws : List (List Char)}

theorem AreWords.map_eq_self {f : Char → Char} (h : AreWords ws)
    (hf : ∀ c, isSmall c = true → f c = c) : ws.map (·.map f) = ws := by
  have hword : ∀ w ∈ ws, w.map f = w := by
    intro w hw
    exact (List.map_congr_left fun c hc => hf c ((h w hw).2 c hc)).trans (List.map_id w)
  exact (List.map_congr_left hword).trans (List.map_id ws)

/-- **The words of joined words** are these words. -/
theorem words_joinWords (hseparator : IsJoint separator) (h : AreWords ws) :
    words (joinWords separator ws) = ws := by
  have hmem : ∀ c ∈ joinWords separator ws, c = separator ∨ isSmall c = true := by
    intro c hc
    rcases mem_of_mem_intercalate hc with hc | ⟨w, hw, hc⟩
    · exact .inl (List.mem_singleton.mp hc)
    · exact .inr ((h w hw).2 c hc)
  have hname : ∀ c ∈ joinWords separator ws, isNameChar c = true := by
    intro c hc
    rcases hmem c hc with rfl | hsmall
    · rcases hseparator with rfl | rfl <;> decide
    · simp [isNameChar, isAlphanum_of_isSmall hsmall]
  -- without capitals no word is cut in two
  have hupper : ∀ c ∈ joinWords separator ws, c.isUpper = false := by
    intro c hc
    rcases hmem c hc with rfl | hsmall
    · rcases hseparator with rfl | rfl <;> decide
    · exact isUpper_of_isSmall hsmall
  have hcut : runs (fun c => !isSeparator c) (joinWords separator ws) = ws := by
    refine runs_intercalate ?_ fun w hw => ⟨(h w hw).1, fun c hc => ?_⟩
    · rcases hseparator with rfl | rfl <;> decide
    · simp [isSeparator_of_isSmall ((h w hw).2 c hc)]
  rw [words_eq hname, trim_of_isNameChar hname, spaceHumps_eq_self hupper, hcut,
    h.map_eq_self fun _ => toLower_of_isSmall]

/-- Words are joined differently if they are different. -/
theorem joinWords_inj {ws' : List (List Char)} (hseparator : IsJoint separator) (h : AreWords ws)
    (h' : AreWords ws') : joinWords separator ws = joinWords separator ws' ↔ ws = ws' := by
  constructor
  · intro heq
    rw [← words_joinWords hseparator h, heq, words_joinWords hseparator h']
  · exact congrArg (joinWords separator)

end Joined

/-! ## The casings of module names -/

section Casings

variable {given name : String}

/-- The words of a given text are those of the module name it stands for. -/
theorem words_of_checkModuleName (h : checkModuleName given = .ok name) :
    words given.toList = words name.toList := by
  rw [← strip_of_checkModuleName h, strip, String.toList_ofList, words, words, trim, trim,
    trimWhere_trimWhere]

theorem areWords_of_checkModuleName (h : checkModuleName given = .ok name) :
    AreWords (words given.toList) := by
  rw [words_of_checkModuleName h]
  exact words_small (checkModuleName_eq_ok h).2

/-- A constant has the words of the name, once its letters are small again. -/
theorem map_toLower_constantCase (h : checkModuleName given = .ok name) :
    (constantCase given).toList.map Char.toLower = snake given.toList := by
  have hname := (checkModuleName_eq_ok h).2
  have hconstant : constantCase given = constantCase name := by
    rw [constantCase, constantCase, constant, constant, snake, snake, words_of_checkModuleName h]
  have hwords : ((words name.toList).map (·.map Char.toUpper)).map (·.map Char.toLower) =
      words name.toList := by
    have hword := AreWords.map_eq_self (f := Char.toLower ∘ Char.toUpper) (words_small hname)
      fun _ => toLower_toUpper_of_isSmall
    simpa [Function.comp_def] using hword
  rw [hconstant, toList_constantCase hname, map_joinWords, hwords, snake,
    words_of_checkModuleName h]
  rfl

variable {a b a' b' : String}

theorem kebabCase_eq_iff (ha : checkModuleName a = .ok a') (hb : checkModuleName b = .ok b') :
    kebabCase a = kebabCase b ↔ words a.toList = words b.toList := by
  rw [kebabCase, kebabCase, String.ofList_inj]
  exact joinWords_inj (.inl rfl) (areWords_of_checkModuleName ha) (areWords_of_checkModuleName hb)

/-- **Names are the same in one casing with separators if they are in another**, and
then in every casing. Casing a name that is in such a casing already is casing the
name itself. -/
theorem casings_identify (ha : checkModuleName a = .ok a') (hb : checkModuleName b = .ok b') :
    (kebabCase a = kebabCase b ↔ snakeCase a = snakeCase b) ∧
    (snakeCase a = snakeCase b ↔ constantCase a = constantCase b) ∧
    (kebabCase a = kebabCase b →
      camelCase a = camelCase b ∧ pascalCase a = pascalCase b) ∧
    kebabCase (kebabCase a) = kebabCase a ∧
    kebabCase (snakeCase a) = kebabCase a ∧
    snakeCase (kebabCase a) = snakeCase a := by
  have hwords := areWords_of_checkModuleName ha
  have hwords' := areWords_of_checkModuleName hb
  have hkebab := kebabCase_eq_iff ha hb
  have hsnake : snakeCase a = snakeCase b ↔ words a.toList = words b.toList := by
    rw [snakeCase, snakeCase, String.ofList_inj]
    exact joinWords_inj (.inr rfl) hwords hwords'
  have hagain : words (kebabCase a).toList = words a.toList := by
    rw [kebabCase, String.toList_ofList]
    exact words_joinWords (.inl rfl) hwords
  have hagain' : words (snakeCase a).toList = words a.toList := by
    rw [snakeCase, String.toList_ofList]
    exact words_joinWords (.inr rfl) hwords
  -- each of the casings is a function of the words
  refine ⟨hkebab.trans hsnake.symm, ⟨?_, ?_⟩, ?_, ?_, ?_, ?_⟩
  · intro heq
    rw [constantCase, constantCase, constant, constant, snake, snake, hsnake.mp heq]
  · -- a constant is told apart as the joined words are, in small letters
    intro heq
    have hlower := map_toLower_constantCase ha
    rw [heq, map_toLower_constantCase hb] at hlower
    rw [snakeCase, snakeCase, hlower]
  · intro heq
    rw [camelCase, camelCase, camel, camel, pascalCase, pascalCase, pascal, pascal,
      hkebab.mp heq]
    exact ⟨rfl, rfl⟩
  · rw [kebabCase, kebab, hagain]
    rfl
  · rw [kebabCase, kebab, hagain']
    rfl
  · rw [snakeCase, snake, hagain]
    rfl

/-- Blanks, capitals and repeated separators make no other name. -/
theorem casings_identify_spelled :
    camelCase " BlogPost2 " = camelCase "blog--Post2_" ∧
      snakeCase (kebabCase " BlogPost2 ") = "blog_post2" := by
  obtain ⟨-, -, hcamel, -, -, hsnake⟩ :=
    casings_identify (a := " BlogPost2 ") (b := "blog--Post2_") rfl rfl
  exact ⟨(hcamel (by decide)).1, hsnake.trans (by decide)⟩

/-- A casing without separators tells less. -/
example : camelCase "a-1b" = camelCase "a1b" ∧ kebabCase "a-1b" ≠ kebabCase "a1b" := by decide

end Casings

end Stencil.Naming
