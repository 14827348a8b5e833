import Stencil.Proofs.Naming.Words

/-!
# Stencil — the shapes of derived names

A name is cut into words, and the casings put the words together again. What is
left of a valid module name in its words is its letters and digits, in order.
So every derived name begins with the first of these, whichever stands in front
of it in the module's name, and there is nothing to derive if there are none.

Main results:

* `flatten_words`, `exists_words_eq` — what the words of a name are made of, and
  what they begin with;
* `isJoined_kebabCase`, `isHeaded_camelCase`, `isHeaded_pascalCase`,
  `shape_constantCase` — when a casing has its shape;
* `moduleNames_shapes`, `moduleNames_eq_empty_iff` — the names of a module.
-/

namespace Stencil.Text

/-! ## Runs -/

/-- Runs are all the characters of the class, in order. -/
theorem flatten_runs (p : Char → Bool) (cs : List Char) : (runs p cs).flatten = cs.filter p := by
  fun_induction runs p cs with
  | case1 => rfl
  | case2 c hc => simp [hc]
  | case3 c hc d rest hd hnil ih => simp_all
  | case4 c hc d rest hd l ls hruns ih => simp_all
  | case5 c hc d rest hd ih => simp_all
  | case6 c rest hc ih => simp_all

theorem ne_nil_of_mem_runs {p : Char → Bool} {cs run : List Char} (h : run ∈ runs p cs) :
    run ≠ [] := by
  fun_induction runs p cs generalizing run with
  | case1 => simp at h
  | case2 c hc => simp_all
  | case3 c hc d rest hd hnil ih => simp_all
  | case4 c hc d rest hd l ls hruns ih =>
    simp only [hruns, List.mem_cons] at h ih
    rcases h with rfl | h
    · simp
    · exact ih (.inr h)
  | case5 c hc d rest hd ih =>
    rcases List.mem_cons.mp h with rfl | h
    · simp
    · exact ih h
  | case6 c rest hc ih => exact ih h

end Stencil.Text

namespace Stencil.Naming

open Stencil.Text

/-! ## Words -/

theorem toUpper_toLower {c : Char} (hc : c.isAlphanum = true) : c.toLower.toUpper = c.toUpper :=
  of_ascii (P := fun c => c.toLower.toUpper = c.toUpper) (by decide) (toNat_lt_of_isAlphanum hc)

/-- Spaces between words are no letters of words. -/
theorem filter_spaceHumps (cs : List Char) :
    (spaceHumps cs).filter (fun c => !isSeparator c) = cs.filter fun c => !isSeparator c := by
  have hspace : isSeparator ' ' = true := rfl
  fun_induction spaceHumps cs with
  | case1 => rfl
  | case2 => rfl
  | case3 c d rest _ ih =>
    -- the space that is put in is no letter
    have hin : (' ' :: spaceHumps (d :: rest)).filter (fun c => !isSeparator c) =
        (d :: rest).filter fun c => !isSeparator c := by
      rw [List.filter_cons_of_neg (by simp [hspace]), ih]
    rw [List.filter_cons, hin, List.filter_cons (x := c)]
  | case4 c d rest _ ih => rw [List.filter_cons, ih, List.filter_cons (x := c)]

section Words

variable {name : List Char} (h : ∀ c ∈ name, isNameChar c = true)

include h

theorem trim_of_isNameChar : trim name = name := by
  have hblank : ∀ c ∈ name, isBlank c = false := fun c hc =>
    of_ascii (P := fun c => isNameChar c = true → isBlank c = false) (by decide)
      (toNat_lt_of_isNameChar (h c hc)) (h c hc)
  exact trimWhere_eq_self (fun c hc => hblank c (List.mem_of_head? hc))
    fun c hc => hblank c (List.mem_of_getLast? hc)

/-- The words of a name are its letters and digits, in order and in lower case. -/
theorem flatten_words : (words name).flatten = (name.filter Char.isAlphanum).map Char.toLower := by
  rw [words_eq h, ← List.map_flatten, flatten_runs, filter_spaceHumps, trim_of_isNameChar h]
  exact congrArg _ (List.filter_congr fun c hc => (isAlphanum_eq_not_isSeparator (h c hc)).symm)

theorem ne_nil_of_mem_words : ∀ w ∈ words name, w ≠ [] := by
  rw [words_eq h, List.forall_mem_map]
  intro run hrun
  simpa using ne_nil_of_mem_runs hrun

theorem words_eq_nil_iff : words name = [] ↔ ∀ c ∈ name, c.isAlphanum = false := by
  have hflatten := flatten_words h
  constructor
  · intro hnil
    rw [hnil] at hflatten
    simpa using hflatten.symm
  · intro hnone
    rw [List.filter_eq_nil_iff.mpr (by simpa using hnone), List.map_nil,
      List.flatten_eq_nil_iff] at hflatten
    exact List.eq_nil_iff_forall_not_mem.mpr fun w hw => ne_nil_of_mem_words h w hw (hflatten w hw)

/-- The first word begins with the first letter or digit of the name. -/
theorem head?_flatten_words :
    (words name).flatten.head? = (name.find? Char.isAlphanum).map Char.toLower := by
  rw [flatten_words h, List.head?_map, List.head?_filter]

end Words

/-! ## Shapes -/

/-- A small letter or a digit. -/
def isSmall (c : Char) : Bool :=
  c.isLower || c.isDigit

/-- A capital letter or a digit. -/
def isCapital (c : Char) : Bool :=
  c.isUpper || c.isDigit

/-- Words of characters of a class with a separator between them: one word at
least, and none of them empty. -/
def IsJoined (separator : Char) (p : Char → Bool) (text : String) : Prop :=
  ∀ w ∈ pieces separator text.toList, w ≠ [] ∧ ∀ c ∈ w, p c = true

/-- A text that starts with a character of a class. -/
def StartsWith (p : Char → Bool) (text : String) : Prop :=
  ∃ c, text.toList.head? = some c ∧ p c = true

/-- One word of letters and digits with a first letter of a class. -/
structure IsHeaded (p : Char → Bool) (text : String) : Prop where
  start : StartsWith p text
  chars : ∀ c ∈ text.toList, c.isAlphanum = true

theorem isJoined_joinWords {separator : Char} {p : Char → Bool} {ws : List (List Char)}
    (hseparator : p separator = false) (hws : ∀ w ∈ ws, w ≠ [] ∧ ∀ c ∈ w, p c = true) :
    IsJoined separator p (String.ofList (joinWords separator ws)) ↔ ws ≠ [] := by
  rw [IsJoined, String.toList_ofList, joinWords]
  constructor
  · -- without words there is one empty piece
    rintro h rfl
    exact (h [] (by simp [pieces])).1 rfl
  · intro hne
    rwa [pieces_intercalate hne]
    intro w hw hmem
    rw [(hws w hw).2 _ hmem] at hseparator
    exact absurd hseparator (by decide)

/-- Changing the characters of joined words. -/
theorem map_joinWords (f : Char → Char) (separator : Char) (ws : List (List Char)) :
    (joinWords separator ws).map f = joinWords (f separator) (ws.map (·.map f)) := by
  induction ws with
  | nil => rfl
  | cons w ws ih =>
    cases ws with
    | nil => simp [joinWords]
    | cons v ws =>
      simp only [joinWords, List.map_cons, List.intercalate_cons_cons, List.map_append] at ih ⊢
      rw [ih]
      rfl

/-- The first letter or digit of a name is a letter. -/
def BeginsWithLetter (name : String) : Prop :=
  ∃ c, name.toList.find? Char.isAlphanum = some c ∧ c.isAlpha = true

section Cases

variable {name : String} (h : ∀ c ∈ name.toList, isNameChar c = true)

include h

theorem words_small : ∀ w ∈ words name.toList, w ≠ [] ∧ ∀ c ∈ w, isSmall c = true := by
  refine fun w hw => ⟨ne_nil_of_mem_words h w hw, ?_⟩
  rw [words_eq h] at hw
  obtain ⟨run, hrun, rfl⟩ := List.mem_map.mp hw
  rw [List.forall_mem_map]
  intro c hc
  have halphanum := stretches_alphanum h run hrun c hc
  exact of_ascii (P := fun c => c.isAlphanum = true → isSmall c.toLower = true) (by decide)
    (toNat_lt_of_isAlphanum halphanum) halphanum

/-- `blog-post` -/
theorem isJoined_kebabCase :
    IsJoined '-' isSmall (kebabCase name) ↔ ∃ c ∈ name.toList, c.isAlphanum = true := by
  rw [kebabCase, kebab, isJoined_joinWords (by decide) (words_small h), ne_eq, words_eq_nil_iff h]
  simp

theorem toList_constantCase :
    (constantCase name).toList = joinWords '_' ((words name.toList).map (·.map Char.toUpper)) := by
  have hascii : ∀ c ∈ snake name.toList, c.toNat < 0x80 := by
    intro c hc
    rcases mem_of_mem_intercalate hc with hc | ⟨w, hw, hc⟩
    · obtain rfl := List.mem_singleton.mp hc
      decide
    · exact toNat_lt_of_isAlphanum (words_alphanum h w hw c hc)
  rw [constantCase, String.toList_ofList, constant, upper_eq_map hascii, snake, map_joinWords]
  rfl

theorem isJoined_constantCase :
    IsJoined '_' isCapital (constantCase name) ↔ ∃ c ∈ name.toList, c.isAlphanum = true := by
  have hcapital : ∀ w ∈ (words name.toList).map (·.map Char.toUpper),
      w ≠ [] ∧ ∀ c ∈ w, isCapital c = true := by
    rw [List.forall_mem_map]
    refine fun w hw => ⟨by simpa using ne_nil_of_mem_words h w hw, ?_⟩
    rw [List.forall_mem_map]
    intro c hc
    have halphanum := words_alphanum h w hw c hc
    exact of_ascii (P := fun c => c.isAlphanum = true → isCapital c.toUpper = true) (by decide)
      (toNat_lt_of_isAlphanum halphanum) halphanum
  rw [← String.ofList_toList (s := constantCase name), toList_constantCase h,
    isJoined_joinWords (by decide) hcapital, ne_eq, List.map_eq_nil_iff, words_eq_nil_iff h]
  simp

/-- A name has no words, or its first word begins with its first letter or digit. -/
theorem exists_words_eq :
    (words name.toList = [] ∧ name.toList.find? Char.isAlphanum = none) ∨
    ∃ c cs ws, words name.toList = (c.toLower :: cs) :: ws ∧
      name.toList.find? Char.isAlphanum = some c := by
  have hfirst := head?_flatten_words h
  cases hwords : words name.toList with
  | nil =>
    rw [hwords] at hfirst
    exact .inl ⟨rfl, by simpa using hfirst.symm⟩
  | cons w ws =>
    obtain ⟨d, cs, rfl⟩ := List.exists_cons_of_ne_nil (ne_nil_of_mem_words h w (by simp [hwords]))
    rw [hwords] at hfirst
    cases hfind : name.toList.find? Char.isAlphanum with
    | none => simp [hfind] at hfirst
    | some c =>
      obtain rfl : d = c.toLower := by simpa [hfind] using hfirst
      exact .inr ⟨c, cs, ws, rfl, rfl⟩

theorem head?_camelCase :
    (camelCase name).toList.head? = (name.toList.find? Char.isAlphanum).map Char.toLower := by
  rw [camelCase, String.toList_ofList, camel]
  rcases exists_words_eq h with ⟨hwords, hfind⟩ | ⟨c, cs, ws, hwords, hfind⟩
  · rw [hwords, hfind]
    rfl
  · rw [hwords, hfind]
    rfl

theorem head?_pascalCase :
    (pascalCase name).toList.head? = (name.toList.find? Char.isAlphanum).map Char.toUpper := by
  rw [pascalCase, String.toList_ofList, pascal]
  rcases exists_words_eq h with ⟨hwords, hfind⟩ | ⟨c, cs, ws, hwords, hfind⟩
  · rw [hwords, hfind]
    rfl
  · have halphanum := words_alphanum h (c.toLower :: cs) (by simp [hwords])
    rw [hwords, hfind, List.flatMap_cons, capitalize_cons halphanum,
      toUpper_toLower (List.find?_some hfind)]
    rfl

theorem head?_constantCase :
    (constantCase name).toList.head? = (name.toList.find? Char.isAlphanum).map Char.toUpper := by
  rw [toList_constantCase h]
  rcases exists_words_eq h with ⟨hwords, hfind⟩ | ⟨c, cs, ws, hwords, hfind⟩
  · rw [hwords, hfind]
    rfl
  · rw [hwords, hfind, List.map_cons, List.map_cons, toUpper_toLower (List.find?_some hfind)]
    cases ws <;> rfl

omit h in
/-- A name that begins with that of its letters and digits in some case starts with a
letter if it is one. -/
theorem startsWith_iff {text : String} {f : Char → Char} {p : Char → Bool}
    (hhead : text.toList.head? = (name.toList.find? Char.isAlphanum).map f)
    (hf : ∀ n < 0x80, p (f (Char.ofNat n)) = (Char.ofNat n).isAlpha) :
    StartsWith p text ↔ BeginsWithLetter name := by
  have hcase : ∀ c, name.toList.find? Char.isAlphanum = some c → p (f c) = c.isAlpha :=
    fun c hc => of_ascii (P := fun c => p (f c) = c.isAlpha) hf
      (toNat_lt_of_isAlphanum (List.find?_some hc))
  simp only [StartsWith, BeginsWithLetter, hhead, Option.map_eq_some_iff]
  constructor
  · rintro ⟨_, ⟨c, hc, rfl⟩, hp⟩
    exact ⟨c, hc, hcase c hc ▸ hp⟩
  · rintro ⟨c, hc, halpha⟩
    exact ⟨f c, ⟨c, hc, rfl⟩, (hcase c hc).trans halpha⟩

theorem isHeaded_camelCase : IsHeaded Char.isLower (camelCase name) ↔ BeginsWithLetter name := by
  rw [← startsWith_iff (p := Char.isLower) (head?_camelCase h) (by decide)]
  exact ⟨IsHeaded.start, fun hstart => ⟨hstart, camelCase_alphanum h⟩⟩

theorem isHeaded_pascalCase : IsHeaded Char.isUpper (pascalCase name) ↔ BeginsWithLetter name := by
  rw [← startsWith_iff (p := Char.isUpper) (head?_pascalCase h) (by decide)]
  exact ⟨IsHeaded.start, fun hstart => ⟨hstart, pascalCase_alphanum h⟩⟩

/-- `BLOG_POST` -/
theorem shape_constantCase :
    StartsWith Char.isUpper (constantCase name) ∧ IsJoined '_' isCapital (constantCase name) ↔
      BeginsWithLetter name := by
  rw [startsWith_iff (head?_constantCase h) (by decide), isJoined_constantCase h,
    and_iff_left_iff_imp]
  rintro ⟨c, hc, -⟩
  exact ⟨c, List.mem_of_find?_eq_some hc, List.find?_some hc⟩

theorem head?_kebabCase :
    (kebabCase name).toList.head? = (name.toList.find? Char.isAlphanum).map Char.toLower := by
  rw [kebabCase, String.toList_ofList, kebab]
  rcases exists_words_eq h with ⟨hwords, hfind⟩ | ⟨c, cs, ws, hwords, hfind⟩
  · rw [hwords, hfind]
    rfl
  · rw [hwords, hfind]
    cases ws <;> rfl

omit h in
theorem eq_empty_iff {text : String} {f : Char → Char}
    (hhead : text.toList.head? = (name.toList.find? Char.isAlphanum).map f) :
    text = "" ↔ ¬ ∃ c ∈ name.toList, c.isAlphanum = true := by
  rw [← String.toList_eq_nil_iff, ← List.head?_eq_none_iff, hhead, Option.map_eq_none_iff,
    List.find?_eq_none]
  simp

end Cases

/-! ## The names of a module -/

section Module

variable {given name : String}

/-- The blanks around a given name are all that it has more than its name. -/
theorem strip_of_checkModuleName (h : checkModuleName given = .ok name) : strip given = name := by
  rw [checkModuleName] at h
  split at h
  · simp at h
  · rename_i htrim
    split at h
    · simp at h
    · split at h
      · simp at h
      · rw [strip, htrim]
        exact Except.ok.inj h

/-- Names are derived from what a given name stands for. -/
theorem moduleNames_of_checkModuleName (h : checkModuleName given = .ok name) :
    moduleNames given = moduleNames name := by
  have hstrip := strip_of_checkModuleName h
  have hname : strip name = name := by
    rw [← hstrip, strip, strip, String.toList_ofList, trim, trim, trimWhere_trimWhere]
  rw [moduleNames, moduleNames, hstrip, hname]

theorem moduleNames_eq (h : ∀ c ∈ name.toList, isNameChar c = true) :
    moduleNames name = ⟨name, kebabCase name, camelCase name, pascalCase name, camelCase name,
      constantCase name, kebabCase name⟩ := by
  have hstrip : strip name = name := by rw [strip, trim_of_isNameChar h, String.ofList_toList]
  rw [moduleNames, hstrip]

/-- **The names of a module have the shapes that their uses ask for** if its own name
begins with a letter, once what is no letter or digit is left out. Its directory
needs a letter or a digit anywhere. -/
theorem moduleNames_shapes (h : ∀ c ∈ name.toList, isNameChar c = true) :
    (IsJoined '-' isSmall (moduleNames name).directory ↔
      ∃ c ∈ name.toList, c.isAlphanum = true) ∧
    (IsHeaded Char.isLower (moduleNames name).file ↔ BeginsWithLetter name) ∧
    (IsHeaded Char.isUpper (moduleNames name).className ↔ BeginsWithLetter name) ∧
    (StartsWith Char.isUpper (moduleNames name).constant ∧
      IsJoined '_' isCapital (moduleNames name).constant ↔ BeginsWithLetter name) ∧
    (moduleNames name).variableName = (moduleNames name).file ∧
    (moduleNames name).url = (moduleNames name).directory := by
  rw [moduleNames_eq h]
  exact ⟨isJoined_kebabCase h, isHeaded_camelCase h, isHeaded_pascalCase h, shape_constantCase h,
    rfl, rfl⟩

theorem moduleNames_eq_empty_iff (h : ∀ c ∈ name.toList, isNameChar c = true) :
    ∀ text ∈ [(moduleNames name).directory, (moduleNames name).file, (moduleNames name).className,
        (moduleNames name).constant],
      (text = "" ↔ ¬ ∃ c ∈ name.toList, c.isAlphanum = true) := by
  rw [moduleNames_eq h]
  simp only [List.forall_mem_cons]
  exact ⟨eq_empty_iff (head?_kebabCase h), eq_empty_iff (head?_camelCase h),
    eq_empty_iff (head?_pascalCase h), eq_empty_iff (head?_constantCase h), by simp⟩

end Module

end Stencil.Naming
