import Stencil.Payload.Declaration
import Stencil.Payload.Field
import Stencil.Text.Case

/-!
# Stencil — the schema of a field

The value that a generated validator accepts for a field, read off the text of
the field's type. A primitive has its own schema, `T[]` and `Array<T>` are
arrays of the schema of `T`, and a union of string literals is the choice of
their values. Every other type accepts anything: the schema never refuses a
value that the type allows.
-/

namespace Stencil.Payload

open Stencil.Text

/-- What a value must be. -/
inductive Schema where
  | text
  | number
  | boolean
  | date
  | array (item : Schema)
  | oneOf (values : List (List Char))
  | anything
  deriving DecidableEq, Repr

/-- The schema of a primitive type. -/
def Schema.ofPrimitive? (type : List Char) : Option Schema :=
  if type = "string".toList then some .text
  else if type = "number".toList then some .number
  else if type = "boolean".toList then some .boolean
  else if type = "Date".toList then some .date
  else none

/-- The text itself, if it is not empty and has no line feed. -/
def onOneLine? (item : List Char) : Option (List Char) :=
  if item ≠ [] ∧ '\n' ∉ item then some item else none

/-- The text before the given end, if that is where the type ends, and the
text before is on one line and not empty. -/
def beforeEnd? (ending type : List Char) : Option (List Char) :=
  if ending.isSuffixOf type then
    onOneLine? (type.take (type.length - ending.length))
  else none

/-- The item type of `T[]`. -/
def suffixItem? (type : List Char) : Option (List Char) :=
  beforeEnd? ['[', ']'] type

/-- The item type of `Array<T>`. -/
def genericItem? (type : List Char) : Option (List Char) :=
  (dropWord "Array<" type).bind (beforeEnd? ['>'])

/-- The item type of an array type. -/
def arrayItem? (type : List Char) : Option (List Char) :=
  match suffixItem? type with
  | some item => some item
  | none => genericItem? type

/-- The value of a string literal, which holds no quote. -/
def literalValue? : List Char → Option (List Char)
  | [] => none
  | q :: rest =>
    if q = '\'' ∨ q = '"' then
      if rest.getLast? = some q ∧ rest.dropLast.all (fun c => c ≠ '\'' ∧ c ≠ '"') then
        some rest.dropLast
      else none
    else none

/-- The values of a union of string literals. -/
def unionValues? (type : List Char) : Option (List (List Char)) :=
  (pieces '|' type).mapM fun member => literalValue? (trim member)

/-- The schema of a type that is no primitive and no array. -/
def Schema.ofUnion (type : List Char) : Schema :=
  if type.contains '|' then
    match unionValues? type with
    | some values => .oneOf values
    | none => .anything
  else .anything

private theorem length_of_beforeEnd? {ending type item : List Char}
    (hend : ending ≠ []) (h : beforeEnd? ending type = some item) :
    item.length < type.length := by
  unfold beforeEnd? at h
  split at h
  · rename_i hs
    obtain ⟨front, rfl⟩ := List.isSuffixOf_iff_suffix.1 hs
    unfold onOneLine? at h
    split at h
    · obtain rfl := Option.some.inj h
      have : 0 < ending.length := List.length_pos_iff.2 hend
      simp only [List.length_take, List.length_append]
      omega
    · simp at h
  · simp at h

private theorem length_of_dropWord {word : String} {cs rest : List Char}
    (h : dropWord word cs = some rest) : rest.length ≤ cs.length := by
  unfold dropWord at h
  split at h
  · obtain rfl := Option.some.inj h
    simp
  · simp at h

theorem length_of_arrayItem? {type item : List Char} (h : arrayItem? type = some item) :
    item.length < type.length := by
  unfold arrayItem? at h
  split at h
  · rename_i found hfound
    obtain rfl := Option.some.inj h
    exact length_of_beforeEnd? (by simp) hfound
  · obtain ⟨rest, hrest, hitem⟩ := Option.bind_eq_some_iff.1 h
    exact Nat.lt_of_lt_of_le (length_of_beforeEnd? (by simp) hitem) (length_of_dropWord hrest)

theorem length_dropEndWhile_le (p : Char → Bool) (cs : List Char) :
    (dropEndWhile p cs).length ≤ cs.length := by
  simpa [dropEndWhile] using (List.dropWhile_sublist p (l := cs.reverse)).length_le

theorem length_trim_le (cs : List Char) : (trim cs).length ≤ cs.length :=
  Nat.le_trans (length_dropEndWhile_le _ _) (List.dropWhile_sublist _).length_le

/-- The schema of a type text. An object type written in place is not looked
into. -/
def Schema.ofType (type : List Char) : Schema :=
  match Schema.ofPrimitive? (trim type) with
  | some schema => schema
  | none =>
    if (trim type).head? = some '\x7b' then .anything
    else
      match _h : arrayItem? (trim type) with
      | some item => .array (Schema.ofType item)
      | none => Schema.ofUnion (trim type)
termination_by type.length
decreasing_by exact Nat.lt_of_lt_of_le (length_of_arrayItem? _h) (length_trim_le type)

/-- The schema as an expression. -/
def Schema.render : Schema → List Char
  | .text => "z.string()".toList
  | .number => "z.number()".toList
  | .boolean => "z.boolean()".toList
  | .date => "z.coerce.date()".toList
  | .array item => "z.array(".toList ++ item.render ++ [')']
  | .oneOf values =>
    "z.enum([".toList ++ [',', ' '].intercalate (values.map fun v => '\'' :: v ++ ['\'']) ++
      "])".toList
  | .anything => "z.any()".toList

/-- What a text must be besides a text. -/
inductive Refinement where
  | email
  | url
  deriving DecidableEq, Repr

/-- The refinement that a field's name asks for. -/
def Refinement.ofName? (name : List Char) : Option Refinement :=
  if contains "email".toList (lower name) then some .email
  else if contains "url".toList (lower name) then some .url
  else none

/-- How a refinement is written after the schema it refines. -/
def Refinement.render : Refinement → List Char
  | .email => ".email()".toList
  | .url => ".url()".toList

/-- The refinement of a field: only a plain text has one. -/
def Field.refinement? (f : Field) : Option Refinement :=
  if Schema.ofType f.typeText.toList = .text then Refinement.ofName? f.name.toList else none

/-- The schema expression of a field. -/
def Field.schema (f : Field) : List Char :=
  (Schema.ofType f.typeText.toList).render ++
    ((f.refinement?.map Refinement.render).getD []) ++
    (if f.isOptional then ".optional()".toList else [])

end Stencil.Payload
