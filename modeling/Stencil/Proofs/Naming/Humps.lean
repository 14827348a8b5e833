import Stencil.Proofs.Naming.Rejoined

/-!
# Stencil — camel case read back

Camel case marks the beginning of a word by a capital behind a small letter or a
digit. A word that begins with a digit has no such capital, and a single letter has
nothing small for the next capital to stand behind. In every other name the humps are
where the words begin, so the words can be found again and with them every casing of
the name.

Main results:

* `words_humps_iff` — when words that are capitalized and put together are found again;
* `camelCase_readBack` — which module names can be read back from their camel case.
-/

namespace Stencil.Text

/-- Stretches of the class in front of a run belong to it. -/
theorem runs_append_of_runs {p : Char → Bool} {block rest r : List Char} {rs : List (List Char)}
    (hblock : ∀ c ∈ block, p c = true) (hrest : ∀ d ∈ rest.head?, p d = true)
    (hruns : runs p rest = r :: rs) : runs p (block ++ rest) = (block ++ r) :: rs := by
  induction block with
  | nil => exact hruns
  | cons c block ih =>
    have htail : ∀ d ∈ block, p d = true := fun d hd => hblock d (List.mem_cons_of_mem c hd)
    refine runs_cons_of_runs (hblock c List.mem_cons_self) (fun d hd => ?_) (ih htail)
    cases block with
    | nil => exact hrest d hd
    | cons e block =>
      obtain rfl := Option.some.inj hd
      exact htail _ List.mem_cons_self

end Stencil.Text

namespace Stencil.Naming

open Stencil.Text

/-! ## Humps -/

/-- A word with a letter at its beginning. -/
def HasInitial (w : List Char) : Prop :=
  ∃ c ∈ w.head?, c.isAlpha = true

/-- Words whose beginnings show when they are capitalized and put together: behind the
first word each begins with a letter, and those between the first and the last have more
than this one letter. -/
structure HasHumps (ws : List (List Char)) : Prop where
  initials : ∀ w ∈ ws.tail, HasInitial w
  long : ∀ w ∈ ws.tail.dropLast, 2 ≤ w.length

instance (w : List Char) : Decidable (HasInitial w) :=
  match w with
  | [] => .isFalse (by simp [HasInitial])
  | c :: _ => decidable_of_iff (c.isAlpha = true) (by simp [HasInitial])

theorem hasHumps_iff {ws : List (List Char)} :
    HasHumps ws ↔ (∀ w ∈ ws.tail, HasInitial w) ∧ ∀ w ∈ ws.tail.dropLast, 2 ≤ w.length :=
  ⟨fun h => ⟨h.initials, h.long⟩, fun h => ⟨h.1, h.2⟩⟩

instance (ws : List (List Char)) : Decidable (HasHumps ws) :=
  decidable_of_iff' _ hasHumps_iff

/-- What a word becomes in camel case: one character, a capital perhaps, and small ones
behind it. -/
structure IsBlock (block : List Char) : Prop where
  ne_nil : block ≠ []
  chars : ∀ c ∈ block, c.isAlphanum = true
  small : ∀ c ∈ block.tail, isSmall c = true

/-- A text behind which a capital begins a word. -/
def EndsSmall (block : List Char) : Prop :=
  ∃ c ∈ block.getLast?, isHumpFoot c = true

theorem endsSmall_cons_cons {c d : Char} {block : List Char} :
    EndsSmall (c :: d :: block) ↔ EndsSmall (d :: block) := by
  rw [EndsSmall, EndsSmall, List.getLast?_cons_cons]

section Blocks

variable {block rest : List Char} {c : Char}

/-- No hump lies within a block, so it is decided where the next one begins. -/
theorem spaceHumps_block (hne : block ≠ []) (hsmall : ∀ d ∈ block.tail, isSmall d = true) :
    (EndsSmall block ∧ c.isUpper = true →
      spaceHumps (block ++ c :: rest) = block ++ ' ' :: spaceHumps (c :: rest)) ∧
    (¬ (EndsSmall block ∧ c.isUpper = true) →
      spaceHumps (block ++ c :: rest) = block ++ spaceHumps (c :: rest)) := by
  induction block with
  | nil => exact absurd rfl hne
  | cons b block ih =>
    cases block with
    | nil =>
      have hhump : (isHumpFoot b && c.isUpper) = true ↔ EndsSmall [b] ∧ c.isUpper = true := by
        simp [EndsSmall]
      rw [← hhump]
      constructor
      · intro h
        rw [List.singleton_append, spaceHumps, if_pos h]
        rfl
      · intro h
        rw [List.singleton_append, spaceHumps, if_neg h]
        rfl
    | cons d block =>
      have hd : d.isUpper = false := isUpper_of_isSmall (hsmall d List.mem_cons_self)
      have hpass : spaceHumps (b :: d :: (block ++ c :: rest)) =
          b :: spaceHumps (d :: (block ++ c :: rest)) := by
        rw [spaceHumps, if_neg (by simp [hd])]
      obtain ⟨hcut, hon⟩ := ih (by simp) fun e he => hsmall e (List.mem_cons_of_mem d he)
      rw [endsSmall_cons_cons]
      simp only [List.cons_append] at hcut hon ⊢
      rw [hpass]
      exact ⟨fun h => congrArg _ (hcut h), fun h => congrArg _ (hon h)⟩

end Blocks

theorem map_toLower_of_small {cs : List Char} (h : ∀ c ∈ cs, isSmall c = true) :
    cs.map Char.toLower = cs :=
  (List.map_congr_left fun c hc => toLower_of_isSmall (h c hc)).trans (List.map_id cs)

section Words

variable {w : List Char} (hne : w ≠ []) (hw : ∀ c ∈ w, isSmall c = true)

include hne hw

theorem exists_capitalize : ∃ c rest, w = c :: rest ∧ capitalize w = c.toUpper :: rest := by
  obtain ⟨c, rest, rfl⟩ := List.exists_cons_of_ne_nil hne
  refine ⟨c, rest, rfl, ?_⟩
  rw [capitalize_cons fun d hd => isAlphanum_of_isSmall (hw d hd),
    map_toLower_of_small fun d hd => hw d (List.mem_cons_of_mem c hd)]

theorem isBlock_word : IsBlock w :=
  ⟨hne, fun c hc => isAlphanum_of_isSmall (hw c hc), fun c hc => hw c (List.mem_of_mem_tail hc)⟩

theorem isBlock_capitalize : IsBlock (capitalize w) := by
  have hchars := capitalize_alphanum fun c hc => isAlphanum_of_isSmall (hw c hc)
  obtain ⟨c, rest, rfl, hcapital⟩ := exists_capitalize hne hw
  rw [hcapital] at hchars ⊢
  exact ⟨by simp, hchars, fun d hd => hw d (List.mem_cons_of_mem c hd)⟩

/-- A capitalized word is read as the word. -/
theorem map_toLower_capitalize : (capitalize w).map Char.toLower = w := by
  obtain ⟨c, rest, rfl, hcapital⟩ := exists_capitalize hne hw
  rw [hcapital, List.map_cons, toLower_toUpper_of_isSmall (hw c List.mem_cons_self),
    map_toLower_of_small fun d hd => hw d (List.mem_cons_of_mem c hd)]

/-- A word shows its beginning by a capital if it begins with a letter. -/
theorem exists_capitalize_upper :
    ∃ c rest, capitalize w = c :: rest ∧ (c.isUpper = true ↔ HasInitial w) := by
  obtain ⟨c, rest, rfl, hcapital⟩ := exists_capitalize hne hw
  have hc : isSmall c = true := hw c List.mem_cons_self
  have hupper : c.toUpper.isUpper = c.isAlpha :=
    of_ascii (P := fun c => isSmall c = true → c.toUpper.isUpper = c.isAlpha) (by decide)
      (toNat_lt_of_isAlphanum (isAlphanum_of_isSmall hc)) hc
  refine ⟨c.toUpper, rest, hcapital, ?_⟩
  rw [hupper]
  simp [HasInitial]

theorem endsSmall_word : EndsSmall w := by
  obtain ⟨c, hc⟩ := Option.isSome_iff_exists.mp (List.getLast?_isSome.mpr hne)
  exact ⟨c, hc, hw c (List.mem_of_getLast? hc)⟩

/-- A capital alone is nothing for the next one to stand behind. -/
theorem endsSmall_capitalize_iff (hinitial : HasInitial w) :
    EndsSmall (capitalize w) ↔ 2 ≤ w.length := by
  obtain ⟨c, rest, rfl, hcapital⟩ := exists_capitalize hne hw
  rw [hcapital]
  cases rest with
  | nil =>
    obtain ⟨_, hfirst, halpha⟩ := hinitial
    obtain rfl := Option.some.inj hfirst
    have hfoot : isHumpFoot c.toUpper = false :=
      of_ascii (P := fun c => c.isAlpha = true → isHumpFoot c.toUpper = false) (by decide)
        (toNat_lt_of_isAlphanum (isAlphanum_of_isSmall (hw c List.mem_cons_self))) halpha
    simp [EndsSmall, hfoot]
  | cons d rest =>
    rw [endsSmall_cons_cons]
    have hends : EndsSmall (d :: rest) :=
      endsSmall_word (by simp) fun e he => hw e (List.mem_cons_of_mem c he)
    simp [hends]

end Words

/-! ## Words put together -/

/-- The words that a text is cut into at its humps. -/
def humped (cs : List Char) : List (List Char) :=
  (runs (fun c => !isSeparator c) (spaceHumps cs)).map (·.map Char.toLower)

section Humped

variable {block rest : List Char} {c : Char}

theorem IsBlock.unseparated (h : IsBlock block) : ∀ d ∈ block, (!isSeparator d) = true := by
  intro d hd
  have halphanum : d.isAlphanum = true := h.chars d hd
  rw [← isAlphanum_eq_not_isSeparator (by simp [isNameChar, halphanum]), halphanum]

theorem humped_block (h : IsBlock block) : humped block = [block.map Char.toLower] := by
  have hspace : spaceHumps block = block := by
    -- the capital of a block stands in front, where no word ends
    obtain ⟨c, rest, rfl⟩ := List.exists_cons_of_ne_nil h.ne_nil
    cases rest with
    | nil => rfl
    | cons d rest =>
      have hupper : ∀ e ∈ d :: rest, e.isUpper = false := fun e he =>
        isUpper_of_isSmall (h.small e he)
      rw [spaceHumps, if_neg (by simp [hupper d]), spaceHumps_eq_self hupper]
  rw [humped, hspace, runs_self h.ne_nil h.unseparated]
  rfl

theorem humped_cut (h : IsBlock block) (hcut : EndsSmall block ∧ c.isUpper = true) :
    humped (block ++ c :: rest) = block.map Char.toLower :: humped (c :: rest) := by
  rw [humped, (spaceHumps_block h.ne_nil h.small).1 hcut,
    runs_append_sep h.ne_nil h.unseparated (by decide), List.map_cons]
  rfl

/-- Where no word is seen to begin, the first word goes on. -/
theorem humped_on (h : IsBlock block) (hc : c.isAlphanum = true)
    (hon : ¬ (EndsSmall block ∧ c.isUpper = true)) (ws : List (List Char)) :
    humped (block ++ c :: rest) ≠ block.map Char.toLower :: ws := by
  have hclass : (!isSeparator c) = true := by
    rw [← isAlphanum_eq_not_isSeparator (by simp [isNameChar, hc]), hc]
  have hhead : (spaceHumps (c :: rest)).head? = some c := by
    cases rest with
    | nil => rfl
    | cons d rest =>
      rw [spaceHumps]
      split <;> rfl
  rw [humped, (spaceHumps_block h.ne_nil h.small).2 hon]
  cases hruns : runs (fun c => !isSeparator c) (spaceHumps (c :: rest)) with
  | nil =>
    -- the character itself is in a run
    have hflatten := flatten_runs (fun c => !isSeparator c) (spaceHumps (c :: rest))
    rw [hruns, filter_spaceHumps] at hflatten
    simp [hclass] at hflatten
  | cons r rs =>
    have hr : r ≠ [] := ne_nil_of_mem_runs (hruns ▸ List.mem_cons_self)
    rw [runs_append_of_runs h.unseparated (by simpa [hhead] using hclass) hruns]
    intro heq
    have hlength := congrArg List.length (List.cons.inj heq).1
    have := List.length_pos_of_ne_nil hr
    simp only [List.length_map, List.length_append] at hlength
    omega

end Humped

/-- **When words that are put together are found again**: each word behind the first
begins with a letter, and the next one stands behind something small. -/
theorem words_humps_iff {block : List Char} {ws : List (List Char)} (hblock : IsBlock block)
    (hws : AreWords ws) :
    humped (block ++ ws.flatMap capitalize) = block.map Char.toLower :: ws ↔
      (ws = [] ∨ EndsSmall block) ∧ (∀ w ∈ ws, HasInitial w) ∧
        ∀ w ∈ ws.dropLast, 2 ≤ w.length := by
  -- on the words; each one is the block in front of the next
  induction ws generalizing block with
  | nil => simp [humped_block hblock]
  | cons v vs ih =>
    obtain ⟨hv, hvs⟩ := List.forall_mem_cons.mp hws
    have hnext := ih (isBlock_capitalize hv.1 hv.2) hvs
    obtain ⟨c, rest, hcapital, hupper⟩ := exists_capitalize_upper hv.1 hv.2
    rw [List.flatMap_cons]
    by_cases hcut : EndsSmall block ∧ c.isUpper = true
    · obtain ⟨hends, hc⟩ := hcut
      have hinitial : HasInitial v := hupper.mp hc
      rw [map_toLower_capitalize hv.1 hv.2, endsSmall_capitalize_iff hv.1 hv.2 hinitial,
        hcapital, List.cons_append] at hnext
      rw [hcapital, List.cons_append, humped_cut hblock ⟨hends, hc⟩, List.cons_inj_right, hnext]
      cases vs with
      | nil => simp [hends, hinitial]
      | cons u us => simp [hends, hinitial, and_left_comm, and_assoc]
    · have hc : c.isAlphanum = true :=
        (isBlock_capitalize hv.1 hv.2).chars c (by simp [hcapital])
      rw [hcapital, List.cons_append]
      refine iff_of_false (humped_on hblock hc hcut _) ?_
      rintro ⟨hends, hinitials, -⟩
      exact hcut ⟨by simpa using hends, hupper.mpr (hinitials v List.mem_cons_self)⟩

/-! ## Camel case -/

section Camel

variable {given name other other' : String}

theorem isNameChar_camelCase (h : checkModuleName given = .ok name) :
    ∀ c ∈ (camelCase given).toList, isNameChar c = true := by
  have hcamel : camelCase given = camelCase name := by
    rw [camelCase, camelCase, camel, camel, words_of_checkModuleName h]
  rw [hcamel]
  intro c hc
  simp [isNameChar, camelCase_alphanum (checkModuleName_eq_ok h).2 c hc]

theorem words_camelCase_iff (h : checkModuleName given = .ok name) :
    words (camelCase given).toList = words given.toList ↔ HasHumps (words given.toList) := by
  have hwords := areWords_of_checkModuleName h
  have hchars := isNameChar_camelCase h
  have hhumped : words (camelCase given).toList = humped (camel given.toList) := by
    rw [words_eq hchars, trim_of_isNameChar hchars, camelCase, String.toList_ofList]
    rfl
  rw [hhumped, camel, hasHumps_iff]
  cases hgiven : words given.toList with
  | nil => simp [humped, spaceHumps, runs]
  | cons w ws =>
    rw [hgiven] at hwords
    obtain ⟨hw, hws⟩ := List.forall_mem_cons.mp hwords
    have hfound := words_humps_iff (isBlock_word hw.1 hw.2) hws
    rw [map_toLower_of_small hw.2] at hfound
    dsimp only [List.tail_cons]
    rw [hfound]
    simp [endsSmall_word hw.1 hw.2]

theorem kebabCase_camelCase_iff (h : checkModuleName given = .ok name) :
    kebabCase (camelCase given) = kebabCase given ↔ HasHumps (words given.toList) := by
  rw [← words_camelCase_iff h, kebabCase, kebabCase, String.ofList_inj]
  exact joinWords_inj (.inl rfl) (words_small (isNameChar_camelCase h))
    (areWords_of_checkModuleName h)

/-- **Camel case can be read back** exactly if the words of the name show their
beginnings in it. Of two modules with such names the file names are the same only if the
directories are. -/
theorem camelCase_readBack (h : checkModuleName given = .ok name) :
    (kebabCase (camelCase given) = kebabCase given ↔ HasHumps (words given.toList)) ∧
    (checkModuleName other = .ok other' →
      HasHumps (words given.toList) → HasHumps (words other.toList) →
        ((moduleNames given).file = (moduleNames other).file ↔
          (moduleNames given).directory = (moduleNames other).directory)) := by
  refine ⟨kebabCase_camelCase_iff h, fun h' hhumps hhumps' => ?_⟩
  -- names are derived from the text without the blanks around it
  obtain ⟨hname, hchars⟩ := checkModuleName_eq_ok h
  obtain ⟨hname', hchars'⟩ := checkModuleName_eq_ok h'
  rw [words_of_checkModuleName h] at hhumps
  rw [words_of_checkModuleName h'] at hhumps'
  rw [moduleNames_of_checkModuleName h, moduleNames_of_checkModuleName h', moduleNames_eq hchars,
    moduleNames_eq hchars']
  show camelCase name = camelCase other' ↔ kebabCase name = kebabCase other'
  constructor
  · intro hfile
    rw [← (kebabCase_camelCase_iff hname).mpr hhumps, hfile,
      (kebabCase_camelCase_iff hname').mpr hhumps']
  · intro hdirectory
    rw [camelCase, camelCase, camel, camel, (kebabCase_eq_iff hname hname').mp hdirectory]

/-- A digit may stand at the beginning of the first word, and the last one may be a single
letter; between them a single letter is lost. -/
theorem camelCase_readBack_digit :
    kebabCase (camelCase "_2blog--PostB") = "2blog-post-b" ∧
      (moduleNames "_2blog--PostB").directory = (moduleNames " _2blogPost-b").directory ∧
      kebabCase (camelCase "blog-b-post") ≠ kebabCase "blog-b-post" := by
  have hvalid : checkModuleName "_2blog--PostB" = .ok "_2blog--PostB" := rfl
  have hvalid' : checkModuleName " _2blogPost-b" = .ok "_2blogPost-b" := rfl
  have hlone : checkModuleName "blog-b-post" = .ok "blog-b-post" := rfl
  obtain ⟨hread, hfile⟩ := @camelCase_readBack _ _ " _2blogPost-b" _ hvalid
  have hhumps : HasHumps (words "_2blog--PostB".toList) := by decide
  refine ⟨(hread.mpr hhumps).trans (by decide), ?_, fun heq => ?_⟩
  · exact (hfile hvalid' hhumps (by decide)).mp (by decide +kernel)
  · exact absurd ((kebabCase_camelCase_iff hlone).mp heq) (by decide)

end Camel

end Stencil.Naming
