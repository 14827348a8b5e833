import Stencil.Proofs.Payload.Union

/-!
# Stencil — the schema of an array type

An array type is a base type with any number of wrappings around it, each `T[]` or
`Array<T>`. Its schema is read off the text from the outside: the end `[]` is tried
first, then `Array<` at the front together with the `>` at the end. What the base
looks like does not matter, brackets in it included, as long as it is no array
itself: its two ends are the only ends that reading ever comes to.

Main results:

* `arrayItem?_around` — reading takes away the outermost wrapping;
* `ofType_wrapped` — the schema of a base type in wrappings;
* `schema_wrapped` — the schema expression of a field of such a type.
-/

namespace Stencil.Payload

open Stencil.Text

/-- A way to make an array type of a type. -/
inductive Wrapping where
  /-- `T[]`. -/
  | suffixed
  /-- `Array<T>`. -/
  | generic
  deriving DecidableEq, Repr

/-- A type in one wrapping. -/
def Wrapping.around (type : List Char) : Wrapping → List Char
  | suffixed => type ++ ['[', ']']
  | generic => "Array<".toList ++ (type ++ ['>'])

theorem Wrapping.around_suffixed (type : List Char) :
    suffixed.around type = type ++ ['[', ']'] :=
  rfl

theorem Wrapping.around_generic (type : List Char) :
    generic.around type = "Array<".toList ++ (type ++ ['>']) :=
  rfl

/-- A type in wrappings, the outermost one first. -/
def wrapped (ws : List Wrapping) (base : List Char) : List Char :=
  ws.foldr (fun w type => w.around type) base

@[simp] theorem wrapped_nil (base : List Char) : wrapped [] base = base :=
  rfl

@[simp] theorem wrapped_cons (w : Wrapping) (ws : List Wrapping) (base : List Char) :
    wrapped (w :: ws) base = w.around (wrapped ws base) :=
  rfl

/-- A text that is looked into: it stands on one line without blanks around it, is no
union, and opens no object type. -/
structure IsInline (type : List Char) : Prop where
  ne_nil : type ≠ []
  trimmed : trim type = type
  bar : '|' ∉ type
  line : '\n' ∉ type
  head : type.head? ≠ some '\x7b'

/-- A base type: it is looked into, and is no array of anything. -/
structure IsBase (base : List Char) : Prop extends IsInline base where
  not_suffixed : ¬ ['[', ']'] <:+ base
  not_generic : ∀ item, item ≠ [] → base ≠ Wrapping.generic.around item

variable {base type item : List Char} {w : Wrapping} {ws : List Wrapping}

/-! ## Wrappings -/

namespace Wrapping

/-- A wrapping leaves no blank at an end, and adds neither bar, line feed nor brace. -/
theorem isInline_around (w : Wrapping) (h : IsInline type) : IsInline (w.around type) := by
  -- one end of the text is that of the type, or both are those of the wrapping
  obtain ⟨c, rest, init, d, hcons, hconcat, hc, hd, hbrace⟩ : ∃ c rest init d,
      w.around type = c :: rest ∧ w.around type = init ++ [d] ∧
        isBlank c = false ∧ isBlank d = false ∧ c ≠ '\x7b' := by
    cases w with
    | suffixed =>
      obtain ⟨c, rest, hcons⟩ := List.exists_cons_of_ne_nil h.ne_nil
      have hblank : isBlank c = false := by
        apply head?_trimWhere isBlank type
        show (trim type).head? = some c
        rw [h.trimmed, hcons]
        rfl
      have hbrace : c ≠ '\x7b' := by
        rintro rfl
        exact h.head (by rw [hcons]; rfl)
      exact ⟨c, rest ++ ['[', ']'], type ++ ['['], ']', by rw [around_suffixed, hcons]; rfl,
        by rw [around_suffixed, List.append_assoc]; rfl, hblank, by decide, hbrace⟩
    | generic =>
      exact ⟨'A', "rray<".toList ++ (type ++ ['>']), "Array<".toList ++ type, '>', rfl,
        by rw [around_generic, List.append_assoc], by decide, by decide, by decide⟩
  have hadded : ∀ c ∈ w.around type, c ∈ type ∨ c ∈ "Array<>[]".toList := by
    cases w with
    | suffixed =>
      intro c hc
      rcases List.mem_append.mp hc with hc | hc
      · exact .inl hc
      · exact .inr (List.mem_append_right "Array<>".toList hc)
    | generic =>
      intro c hc
      rcases List.mem_append.mp hc with hc | hc
      · exact .inr (List.mem_append_left ">[]".toList hc)
      · rcases List.mem_append.mp hc with hc | hc
        · exact .inl hc
        · obtain rfl := List.mem_singleton.mp hc
          exact .inr (by decide)
  exact {
    ne_nil := by simp [hcons]
    trimmed := trim_of_ends hcons hconcat hc hd
    bar := fun hmem => (hadded _ hmem).elim h.bar (by decide)
    line := fun hmem => (hadded _ hmem).elim h.line (by decide)
    head := by simp [hcons, hbrace] }

/-- A wrapping ends with a bracket, which no primitive does. -/
theorem ofPrimitive?_around (w : Wrapping) (type : List Char) :
    Schema.ofPrimitive? (w.around type) = none := by
  have hne : ∀ word : String, ']' ∉ word.toList → '>' ∉ word.toList →
      w.around type ≠ word.toList := by
    intro word hsuffixed hgeneric heq
    cases w with
    | suffixed => exact hsuffixed (heq ▸ by simp [around_suffixed])
    | generic => exact hgeneric (heq ▸ by simp [around_generic])
  rw [Schema.ofPrimitive?, if_neg (hne _ (by decide) (by decide)),
    if_neg (hne _ (by decide) (by decide)), if_neg (hne _ (by decide) (by decide)),
    if_neg (hne _ (by decide) (by decide))]

/-- **The outermost wrapping** is the one that reading takes away. -/
theorem arrayItem?_around (w : Wrapping) (h : IsInline type) :
    arrayItem? (w.around type) = some type := by
  cases w with
  | suffixed =>
    have hsuffix : suffixItem? (type ++ ['[', ']']) = some type :=
      beforeEnd?_append h.ne_nil h.line
    rw [around_suffixed, arrayItem?, hsuffix]
  | generic =>
    -- the other end is tried first, but this text does not have it
    have hsuffix : suffixItem? ("Array<".toList ++ (type ++ ['>'])) = none := by
      rw [← List.append_assoc]
      exact suffixItem?_concat (by decide)
    have hgeneric : genericItem? ("Array<".toList ++ (type ++ ['>'])) = some type := by
      rw [genericItem?, dropWord_append, Option.bind_some]
      exact beforeEnd?_append h.ne_nil h.line
    rw [around_generic, arrayItem?, hsuffix, hgeneric]

theorem ofType_around (w : Wrapping) (h : IsInline type) :
    Schema.ofType (w.around type) = .array (Schema.ofType type) :=
  have hwrapped := w.isInline_around h
  ofType_of_arrayItem hwrapped.trimmed (w.ofPrimitive?_around type) hwrapped.head
    (w.arrayItem?_around h)

end Wrapping

theorem isInline_wrapped (ws : List Wrapping) (h : IsInline base) :
    IsInline (wrapped ws base) := by
  induction ws with
  | nil => exact h
  | cons w ws ih => exact w.isInline_around ih

/-! ## The schema of a type in wrappings -/

/-- The schema of a type that is no array: that of a primitive, or anything. -/
def Schema.ofBase (base : List Char) : Schema :=
  (Schema.ofPrimitive? base).getD .anything

/-- A schema in some number of arrays. -/
def Schema.inArrays (schema : Schema) : Nat → Schema
  | 0 => schema
  | n + 1 => .array (schema.inArrays n)

namespace IsBase

theorem arrayItem?_eq_none (h : IsBase base) : arrayItem? base = none := by
  have hsuffix : suffixItem? base = none := by
    rw [Option.eq_none_iff_forall_ne_some]
    rintro item hitem
    obtain ⟨rfl, -⟩ := beforeEnd?_eq_some hitem
    exact h.not_suffixed (List.suffix_append item _)
  have hgeneric : genericItem? base = none := by
    rw [Option.eq_none_iff_forall_ne_some]
    intro item hitem
    obtain ⟨behind, hbehind, hend⟩ := Option.bind_eq_some_iff.mp hitem
    obtain ⟨rfl, hne⟩ := beforeEnd?_eq_some hend
    exact h.not_generic item hne (eq_append_of_dropWord hbehind)
  rw [arrayItem?, hsuffix, hgeneric]

theorem ofType (h : IsBase base) : Schema.ofType base = Schema.ofBase base := by
  rw [Schema.ofBase]
  cases hprimitive : Schema.ofPrimitive? base with
  | some schema => rw [Schema.ofType, h.trimmed, hprimitive, Option.getD_some]
  | none =>
    rw [ofType_of_no_item h.trimmed hprimitive h.head h.arrayItem?_eq_none, Schema.ofUnion,
      if_neg (by simpa using h.bar), Option.getD_none]

end IsBase

/-- **The schema of a type in wrappings** is that of the base in as many arrays. -/
theorem ofType_wrapped (ws : List Wrapping) (h : IsBase base) :
    Schema.ofType (wrapped ws base) = (Schema.ofBase base).inArrays ws.length := by
  -- on the wrappings: what is inside one of them is looked into like the base
  induction ws with
  | nil => exact h.ofType
  | cons w ws ih =>
    rw [wrapped_cons, w.ofType_around (isInline_wrapped ws h.toIsInline), ih]
    rfl

/-! ## The schema of a field -/

theorem render_inArrays (n : Nat) (schema : Schema) :
    (schema.inArrays n).render =
      (List.replicate n "z.array(".toList).flatten ++ schema.render ++ List.replicate n ')' := by
  induction n with
  | zero =>
    show schema.render = _
    simp only [List.replicate_zero, List.flatten_nil, List.nil_append, List.append_nil]
  | succ n ih =>
    -- the new bracket closes behind all the others
    show "z.array(".toList ++ (schema.inArrays n).render ++ [')'] = _
    rw [ih, List.replicate_succ, List.flatten_cons, List.replicate_succ']
    simp only [List.append_assoc]

/-- Arrays are no plain texts. -/
theorem inArrays_eq_text_iff {n : Nat} {schema : Schema} :
    schema.inArrays n = .text ↔ n = 0 ∧ schema = .text := by
  cases n with
  | zero => simp [Schema.inArrays]
  | succ n => simp [Schema.inArrays]

theorem ofBase_eq_text_iff : Schema.ofBase base = .text ↔ base = "string".toList := by
  constructor
  · intro h
    rw [Schema.ofBase, Schema.ofPrimitive?] at h
    by_contra hne
    rw [if_neg hne] at h
    split at h
    · simp at h
    · split at h
      · simp at h
      · split at h
        · simp at h
        · simp at h
  · rintro rfl
    rfl

/-- **The schema of a field of an array type** is that of the base type, a primitive
or anything, in one array for each wrapping. A refinement is added for a plain text
only, and whether the field may be left out is said once, at the end. -/
theorem schema_wrapped {f : Field} (h : IsBase base)
    (htype : f.typeText.toList = wrapped ws base) :
    f.schema =
      (List.replicate ws.length "z.array(".toList).flatten ++
        (Schema.ofBase base).render ++
        (if ws = [] ∧ base = "string".toList then
          ((Refinement.ofName? f.name.toList).map Refinement.render).getD []
        else []) ++
        List.replicate ws.length ')' ++
        (if f.isOptional then ".optional()".toList else []) := by
  have hofType : Schema.ofType f.typeText.toList =
      (Schema.ofBase base).inArrays ws.length := by
    rw [htype, ofType_wrapped ws h]
  have htext : Schema.ofType f.typeText.toList = .text ↔ ws = [] ∧ base = "string".toList := by
    rw [hofType, inArrays_eq_text_iff, List.length_eq_zero_iff, ofBase_eq_text_iff]
  rw [Field.schema, Field.refinement?]
  by_cases hplain : ws = [] ∧ base = "string".toList
  · -- there is no bracket behind which the refinement could stand
    rw [if_pos (htext.mpr hplain), if_pos hplain, hofType, render_inArrays, hplain.1,
      List.length_nil]
    simp only [List.replicate_zero, List.append_nil]
  · rw [if_neg (fun hschema => hplain (htext.mp hschema)), if_neg hplain, hofType,
      render_inArrays, Option.map_none, Option.getD_none, List.append_nil, List.append_nil]

/-- Brackets in the base type are no wrappings, and an array of texts has no
refinement. -/
theorem schema_wrapped_brackets :
    (⟨"email", true, "Array<Map<a[], b>[]>", none⟩ : Field).schema =
        "z.array(z.array(z.any())).optional()".toList ∧
      (⟨"email", false, "string[]", none⟩ : Field).schema = "z.array(z.string())".toList := by
  constructor
  · have hbase : IsBase "Map<a[], b>".toList := {
      ne_nil := by decide
      trimmed := by decide
      bar := by decide
      line := by decide
      head := by decide
      not_suffixed := by decide
      not_generic := fun item _ => by simp [Wrapping.around_generic] }
    have htype : (⟨"email", true, "Array<Map<a[], b>[]>", none⟩ : Field).typeText.toList =
        wrapped [.generic, .suffixed] "Map<a[], b>".toList := rfl
    rw [schema_wrapped hbase htype]
    decide
  · have hbase : IsBase "string".toList := {
      ne_nil := by decide
      trimmed := by decide
      bar := by decide
      line := by decide
      head := by decide
      not_suffixed := by decide
      not_generic := fun item _ => by simp [Wrapping.around_generic] }
    have htype : (⟨"email", false, "string[]", none⟩ : Field).typeText.toList =
        wrapped [.suffixed] "string".toList := rfl
    rw [schema_wrapped hbase htype]
    decide

end Stencil.Payload
