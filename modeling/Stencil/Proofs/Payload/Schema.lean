import Stencil.Proofs.Payload.Union

/-!
# Stencil — what a schema is made of

A schema takes over characters of its type in one place only: between the quotes of
a choice, where the values of a union stand. The rest of it are fixed words.

Main results:

* `mem_of_mem_render`, `mem_of_mem_schema` — the characters of a schema.
-/

namespace Stencil.Payload

open Stencil.Text

/-! ## Parts of types -/

/-- An item of an array type stands in the type. -/
theorem mem_of_mem_arrayItem {type item : List Char} (h : arrayItem? type = some item) :
    ∀ c ∈ item, c ∈ type := by
  have hbefore : ∀ {ending type item : List Char}, beforeEnd? ending type = some item →
      ∀ c ∈ item, c ∈ type := by
    intro ending type item h c hc
    obtain ⟨rfl, -⟩ := beforeEnd?_eq_some h
    exact List.mem_append_left _ hc
  rw [arrayItem?] at h
  split at h
  · rename_i found hfound
    exact Option.some.inj h ▸ hbefore hfound
  · obtain ⟨rest, hrest, hitem⟩ := Option.bind_eq_some_iff.mp h
    exact fun c hc => (dropWord_suffix hrest).subset (hbefore hitem c hc)

/-- The value of a literal stands in the literal. -/
theorem mem_of_mem_literalValue {literal value : List Char}
    (h : literalValue? literal = some value) : ∀ c ∈ value, c ∈ literal := by
  unfold literalValue? at h
  split at h
  · simp at h
  · split at h
    · split at h
      · obtain rfl := Option.some.inj h
        exact fun c hc => List.mem_cons_of_mem _ ((List.dropLast_sublist _).subset hc)
      · simp at h
    · simp at h

/-- What a list of answers holds is the answer for some item. -/
private theorem exists_of_mem_mapM {α β : Type} {f : α → Option β} {xs : List α} {ys : List β}
    (h : xs.mapM f = some ys) {y : β} (hy : y ∈ ys) : ∃ x ∈ xs, f x = some y := by
  induction xs generalizing ys with
  | nil =>
    obtain rfl : [] = ys := Option.some.inj h
    simp at hy
  | cons x xs ih =>
    rw [List.mapM_cons] at h
    obtain ⟨z, hz, hrest⟩ := Option.bind_eq_some_iff.mp h
    obtain ⟨zs, hzs, hys⟩ := Option.bind_eq_some_iff.mp hrest
    obtain rfl := Option.some.inj hys
    rcases List.mem_cons.mp hy with rfl | hy
    · exact ⟨x, by simp, hz⟩
    · obtain ⟨x', hx', hfx'⟩ := ih hzs hy
      exact ⟨x', by simp [hx'], hfx'⟩

/-- The values of a union stand in its members. -/
theorem mem_of_mem_unionValues {type value : List Char} {values : List (List Char)}
    (h : unionValues? type = some values) (hvalue : value ∈ values) : ∀ c ∈ value, c ∈ type := by
  intro c hc
  obtain ⟨member, hmember, hliteral⟩ := exists_of_mem_mapM h hvalue
  exact (mem_of_mem_pieces hmember c (mem_of_mem_trim (mem_of_mem_literalValue hliteral c hc))).1

/-- A primitive has one of four schemas. -/
theorem ofPrimitive?_eq_some {type : List Char} {schema : Schema}
    (h : Schema.ofPrimitive? type = some schema) :
    schema = .text ∨ schema = .number ∨ schema = .boolean ∨ schema = .date := by
  rw [Schema.ofPrimitive?] at h
  split at h
  · exact .inl (Option.some.inj h).symm
  split at h
  · exact .inr (.inl (Option.some.inj h).symm)
  split at h
  · exact .inr (.inr (.inl (Option.some.inj h).symm))
  split at h
  · exact .inr (.inr (.inr (Option.some.inj h).symm))
  · simp at h

/-! ## The characters of a schema -/

/-- The characters that a schema has of its own. -/
def schemaStock : List Char :=
  "z.string()number()boolean()coerce.date()array(enum([', '])any()email()url()optional()".toList

section Schemas

variable {type : List Char} {c : Char}

theorem mem_of_mem_oneOf {values : List (List Char)}
    (h : c ∈ (Schema.oneOf values).render) : c ∈ schemaStock ∨ ∃ value ∈ values, c ∈ value := by
  have hopening : "z.enum([".toList ⊆ schemaStock := by decide
  have hclosing : "])".toList ⊆ schemaStock := by decide
  have hseparator : [',', ' '] ⊆ schemaStock := by decide
  have hquote : '\'' ∈ schemaStock := by decide
  rcases List.mem_append.mp h with h | h
  · rcases List.mem_append.mp h with h | h
    · exact .inl (hopening h)
    · rcases mem_of_mem_intercalate h with h | ⟨part, hpart, h⟩
      · exact .inl (hseparator h)
      · -- a value between its quotes
        obtain ⟨value, hvalue, rfl⟩ := List.mem_map.mp hpart
        rcases List.mem_append.mp h with h | h
        · rcases List.mem_cons.mp h with rfl | h
          · exact .inl hquote
          · exact .inr ⟨value, hvalue, h⟩
        · obtain rfl := List.mem_singleton.mp h
          exact .inl hquote
  · exact .inl (hclosing h)

/-- The schema of a type is made of the type and of fixed words. -/
theorem mem_of_mem_render (h : c ∈ (Schema.ofType type).render) : c ∈ type ∨ c ∈ schemaStock := by
  have hanything : Schema.anything.render ⊆ schemaStock := by decide
  -- on the item types, which stand in the type
  fun_induction Schema.ofType type with
  | case1 type schema hschema =>
    have htext : Schema.text.render ⊆ schemaStock := by decide
    have hnumber : Schema.number.render ⊆ schemaStock := by decide
    have hboolean : Schema.boolean.render ⊆ schemaStock := by decide
    have hdate : Schema.date.render ⊆ schemaStock := by decide
    rcases ofPrimitive?_eq_some hschema with rfl | rfl | rfl | rfl
    · exact .inr (htext h)
    · exact .inr (hnumber h)
    · exact .inr (hboolean h)
    · exact .inr (hdate h)
  | case2 type hprimitive hbrace => exact .inr (hanything h)
  | case3 type hprimitive hbrace item hitem ih =>
    have hopening : "z.array(".toList ⊆ schemaStock := by decide
    have hclosing : [')'] ⊆ schemaStock := by decide
    rcases List.mem_append.mp h with h | h
    · rcases List.mem_append.mp h with h | h
      · exact .inr (hopening h)
      · exact (ih h).imp_left fun hc => mem_of_mem_trim (mem_of_mem_arrayItem hitem c hc)
    · exact .inr (hclosing h)
  | case4 type hprimitive hbrace hitem =>
    rw [Schema.ofUnion] at h
    split at h
    · split at h
      · rename_i values hvalues
        rcases mem_of_mem_oneOf h with hstock | ⟨value, hvalue, hc⟩
        · exact .inr hstock
        · exact .inl (mem_of_mem_trim (mem_of_mem_unionValues hvalues hvalue c hc))
      · exact .inr (hanything h)
    · exact .inr (hanything h)

/-- **What a schema is made of**: the characters of the field's type and of fixed words. -/
theorem mem_of_mem_schema {f : Field} (h : c ∈ f.schema) :
    c ∈ f.typeText.toList ∨ c ∈ schemaStock := by
  have hemail : Refinement.email.render ⊆ schemaStock := by decide
  have hurl : Refinement.url.render ⊆ schemaStock := by decide
  have hoptional : ".optional()".toList ⊆ schemaStock := by decide
  rcases List.mem_append.mp h with h | h
  · rcases List.mem_append.mp h with h | h
    · exact mem_of_mem_render h
    · cases hrefinement : f.refinement? with
      | none => simp [hrefinement] at h
      | some refinement =>
        rw [hrefinement] at h
        cases refinement with
        | email => exact .inr (hemail h)
        | url => exact .inr (hurl h)
  · split at h
    · exact .inr (hoptional h)
    · simp at h

end Schemas

end Stencil.Payload
