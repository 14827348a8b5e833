import Stencil.Proofs.Naming.Words
import Stencil.Proofs.Payload.RoundTrip
import Stencil.Proofs.Text.Lines
import Stencil.Source.TypeStub

/-!
# Stencil — type files to start from are read back

The payload type of a type file to start from is laid out line by line: on each
line stands a field with its semicolon and perhaps a comment, or a comment alone.
The names of the module and of the operation come up in the comments only. So
the fields are read as they were written, whatever these names are, and what
stands below the payload type is not looked at.

Main results:

* `isLayout_members` — lines with fields and comments are a layout;
* `parse_typeStub` — the fields that are read.
-/

namespace Stencil.Payload

open Stencil.Text Cutting

/-! ## Lines of a body -/

/-- Two gaps in a row are one. -/
theorem IsGap.append {ends ends' : Bool} {gap gap' : List Char} (h : IsGap ends gap)
    (h' : IsGap ends' gap') : IsGap (ends || ends') (gap ++ gap') := by
  induction h with
  | nil => exact h'
  | blank hc _ ih =>
    rw [Bool.or_assoc]
    exact .blank hc ih
  | semicolon _ ih => exact .semicolon ih
  | lineComment htext _ ih =>
    rw [Bool.true_or, List.cons_append, List.cons_append, List.append_assoc]
    exact .lineComment htext ih
  | blockComment htext _ ih =>
    rw [Bool.or_assoc, List.cons_append, List.cons_append, List.append_assoc]
    exact .blockComment htext ih

/-- A layout may have more of a gap in front. -/
theorem IsLayout.append_left {separated separated' ends : Bool} {fields : List Declared}
    {gap body : List Char} (h : IsLayout separated fields body) (hgap : IsGap ends gap)
    (hends : separated' = true → ends = true) : IsLayout separated' fields (gap ++ body) := by
  cases h with
  | done hgap' => exact .done (hgap.append hgap')
  | field hgap' _ hspace hslash hlayout =>
    rw [← List.append_assoc]
    exact .field (hgap.append hgap') (fun h => by rw [hends h, Bool.true_or]) hspace hslash hlayout

/-- Lines of a body, before they are indented. On each stands a field with its
semicolon and what comes behind it, or a comment alone. -/
inductive IsMembers : List Declared → List (List Char) → Prop
  | nil : IsMembers [] []
  | note {fields : List Declared} {lines : List (List Char)} {text : List Char} : '\n' ∉ text →
      IsMembers fields lines → IsMembers fields (('/' :: '/' :: text) :: lines)
  | field {f : Declared} {fields : List Declared} {lines : List (List Char)} {ends : Bool}
      {behind : List Char} : IsGap ends (behind ++ ['\n']) → IsMembers fields lines →
      IsMembers (f :: fields) ((f.text [] ++ ';' :: behind) :: lines)

/-- The lines as they stand between the braces. -/
def memberLines (lines : List (List Char)) : List Char :=
  lines.flatMap fun line => ' ' :: ' ' :: (line ++ ['\n'])

/-- **Lines with fields and comments** are a layout of the fields. -/
theorem isLayout_members {fields : List Declared} {lines : List (List Char)}
    (h : IsMembers fields lines) : IsLayout false fields (memberLines lines) := by
  have hspace : IsGap (' ' == '\n' || false) [' '] := .blank (by decide) .nil
  have hindent : IsGap false [' ', ' '] := hspace.append hspace
  induction h with
  | nil => exact .done .nil
  | @note fields lines text htext _ ih =>
    have hcomment : IsGap true ([' ', ' '] ++ '/' :: '/' :: (text ++ ['\n'])) :=
      hindent.append (.lineComment htext .nil)
    have hlayout : IsLayout false fields
        ([' ', ' '] ++ '/' :: '/' :: (text ++ ['\n']) ++ memberLines lines) :=
      ih.append_left hcomment (by simp)
    simpa [memberLines] using hlayout
  | @field f fields lines ends behind hbehind _ ih =>
    -- the semicolon ends the field, so that another one may follow
    have hrest : IsLayout true fields (';' :: (behind ++ ['\n']) ++ memberLines lines) :=
      ih.append_left (.semicolon hbehind) (fun _ => rfl)
    have hlayout : IsLayout false (f :: fields)
        ([' ', ' '] ++ (f.text [] ++ (';' :: (behind ++ ['\n']) ++ memberLines lines))) :=
      .field hindent (by simp) (by simp) (by simp) hrest
    simpa [memberLines] using hlayout

/-- Characters that stand for themselves are a type. -/
theorem isType_plain {text : List Char}
    (h : ∀ c ∈ text, IsOrdinary c ∧ c ≠ '\n' ∧ c ≠ '/') : IsType false text := by
  have happend := IsType.append_plain h .done
  rwa [List.append_nil] at happend

end Stencil.Payload

namespace Stencil.Source

open Stencil.Naming Stencil.Payload Stencil.Text

/-! ## The payload type of a stub -/

/-- The fields that a type file to start from declares: the name, whether it is
optional, and the type. -/
def stubFields (operation : String) : List (String × Bool × String) :=
  match Crud.ofName? operation with
  | some .get | some .update | some .delete => [("id", false, "string")]
  | some .list =>
    [("page", true, "number"), ("limit", true, "number"), ("sort_by", true, "string"),
      ("sort_order", true, "'asc' | 'desc'"), ("search", true, "string")]
  | some .create | none => []

/-- What is read of a declared field. -/
def shown (f : Declared) : String × Bool × String :=
  (String.ofList f.name, f.isOptional, String.ofList (joined f.typeText))

/-- A field whose type is one word. -/
def wordField (name : String) (isOptional : Bool) (type : String)
    (hname : isIdentifier name.toList = true) (htype : isIdentifier type.toList = true) :
    Declared where
  name := name.toList
  isOptional := isOptional
  typeText := ' ' :: type.toList
  isName := hname
  isType := by
    refine isType_plain fun c hc => ?_
    rcases List.mem_cons.mp hc with rfl | hc
    · exact ⟨.of_isBlank (by decide), by decide, by decide⟩
    · exact plain_of_isIdentifierPart (isIdentifierPart_of_mem htype c hc)
  notBlank := by
    obtain ⟨c, rest, hcs, hc⟩ := exists_cons_of_isIdentifier htype
    exact ⟨c, by simp [hcs], isBlank_of_isIdentifierPart hc⟩

/-- The order to sort in. -/
def orderField : Declared where
  name := "sort_order".toList
  isOptional := true
  typeText := " 'asc' | 'desc'".toList
  isName := by decide
  isType := by
    have hplain : ∀ c ∈ [' ', '|', ' '], IsOrdinary c ∧ c ≠ '\n' ∧ c ≠ '/' := by
      intro c hc
      obtain rfl | rfl : c = ' ' ∨ c = '|' := by simpa [or_comm] using hc
      · exact ⟨.of_isBlank (by decide), by decide, by decide⟩
      · exact ⟨⟨by decide, by decide, by decide, by decide⟩, by decide, by decide⟩
    have hspace : ∀ c ∈ [' '], IsOrdinary c ∧ c ≠ '\n' ∧ c ≠ '/' :=
      fun c hc => hplain c (List.mem_cons.mpr (.inl (List.mem_singleton.mp hc)))
    have hsecond : IsType false ('\'' :: ("desc".toList ++ ['\''])) :=
      .literal rfl (by simp) .done
    have hfirst : IsType false ('\'' :: ("asc".toList ++ '\'' :: ([' ', '|', ' '] ++ _))) :=
      .literal rfl (by simp) (.append_plain hplain hsecond)
    have hboth : IsType false ([' '] ++ _) := .append_plain hspace hfirst
    exact hboth
  notBlank := ⟨'\'', by decide, by decide⟩

/-- The fields of the payload type as a stub declares them. -/
def declaredFields (operation : String) : List Declared :=
  let id := wordField "id" false "string" (by decide) (by decide)
  match Crud.ofName? operation with
  | some .get | some .update | some .delete => [id]
  | some .list =>
    [wordField "page" true "number" (by decide) (by decide),
      wordField "limit" true "number" (by decide) (by decide),
      wordField "sort_by" true "string" (by decide) (by decide), orderField,
      wordField "search" true "string" (by decide) (by decide)]
  | some .create | none => []

theorem map_shown (operation : String) :
    (declaredFields operation).map shown = stubFields operation := by
  rw [declaredFields, stubFields]
  split <;> decide +kernel

theorem nodup_declaredFields (operation : String) :
    ((declaredFields operation).map (·.name)).Nodup := by
  rw [declaredFields]
  split <;> decide +kernel

/-! ## The lines of a stub -/

section Lines

variable {operation : String} {names : ModuleNames}

/-- What a module is called has no line end in it. -/
theorem notMem_moduleNames {name : String} {c : Char} (hc : c = '\n' ∨ c = '\r')
    (hname : ∀ c ∈ name.toList, isNameChar c = true) :
    c ∉ (moduleNames name).given.toList ∧ c ∉ (moduleNames name).className.toList := by
  refine ⟨fun hmem => ?_, fun hmem => ?_⟩
  · have hchar := isNameChar_strip hname c hmem
    rcases hc with rfl | rfl <;> simp [isNameChar] at hchar
  · have hchar := alphanum_className hname c hmem
    rcases hc with rfl | rfl <;> simp at hchar

/-- No name has a line end in it. -/
theorem notMem_names {name : String} {c : Char} (hc : c = '\n' ∨ c = '\r')
    (hoperation : isIdentifier operation.toList = true)
    (hname : ∀ c ∈ name.toList, isNameChar c = true) :
    c ∉ operation.toList ∧ c ∉ (moduleNames name).given.toList ∧
      c ∉ (moduleNames name).className.toList :=
  ⟨notMem_of_isIdentifier hoperation (by rcases hc with rfl | rfl <;> decide),
    notMem_moduleNames hc hname⟩

/-- A line end that stands in no name stands in no line. -/
theorem notMem_payloadMembers {c : Char} (hc : c = '\n' ∨ c = '\r')
    (hoperation : c ∉ operation.toList) (hgiven : c ∉ names.given.toList)
    (hclass : c ∉ names.className.toList) :
    ∀ line ∈ payloadMembers operation names, c ∉ line.toList := by
  rw [payloadMembers]
  rcases hc with rfl | rfl <;> split <;> simp_all

/-- A carriage return that stands in no name stands nowhere in a stub. -/
theorem notMem_typeStub (hoperation : '\r' ∉ operation.toList)
    (hgiven : '\r' ∉ names.given.toList) (hclass : '\r' ∉ names.className.toList) :
    '\r' ∉ (typeStub operation names).toList := by
  have hdeclaration : ∀ (name : String) (members : List String), '\r' ∉ name.toList →
      (∀ line ∈ members, '\r' ∉ line.toList) →
      ∀ line ∈ typeDeclaration name members, '\r' ∉ line.toList := by
    intro name members hname hmembers line hline
    simp only [typeDeclaration, List.mem_append, List.mem_singleton, List.mem_map] at hline
    rcases hline with (rfl | ⟨m, hm, rfl⟩) | rfl
    · simpa using hname
    · simpa using hmembers m hm
    · decide
  have hpayload := notMem_payloadMembers (.inr rfl) hoperation hgiven hclass
  have hresult : ∀ line ∈ resultMembers operation names, '\r' ∉ line.toList := by
    rw [resultMembers]
    split <;> simp_all [recordMembers]
  have herror : ∀ line ∈ errorMembers operation, '\r' ∉ line.toList := by
    rw [errorMembers, errorCases]
    split <;> decide +kernel
  -- the declarations, one after the other
  have hlines : ∀ line ∈ typeStubLines operation names, '\r' ∉ line.toList := by
    simp only [typeStubLines, List.mem_append, or_imp, forall_and]
    exact ⟨⟨⟨⟨⟨⟨hdeclaration _ _ (by decide) hpayload, by simp⟩,
      hdeclaration _ _ (by decide) hresult⟩, by simp⟩,
      hdeclaration _ _ (by decide) herror⟩, by simp⟩,
      hdeclaration _ _ (by decide) (by decide)⟩
  rw [typeStub, String.toList_join, List.mem_flatMap]
  rintro ⟨_, hended, hmem⟩
  obtain ⟨line, hline, rfl⟩ := List.mem_map.mp hended
  rw [String.toList_append, List.mem_append] at hmem
  exact hmem.elim (hlines line hline) (by decide)

/-- The lines of a stub declare its fields. -/
theorem isMembers_payload (hoperation : '\n' ∉ operation.toList)
    (hgiven : '\n' ∉ names.given.toList) (hclass : '\n' ∉ names.className.toList) :
    IsMembers (declaredFields operation)
      ((payloadMembers operation names).map String.toList) := by
  have hend : IsGap ('\n' == '\n' || false) ([] ++ ['\n']) := .blank (by decide) .nil
  have hbehind {text : List Char} (htext : '\n' ∉ text) :
      IsGap (' ' == '\n' || true) (' ' :: '/' :: '/' :: text ++ ['\n']) :=
    .blank (by decide) (.lineComment htext .nil)
  rw [payloadMembers, declaredFields]
  cases Crud.ofName? operation with
  | none =>
    simp only [List.map_cons, List.map_nil, String.toList_append, String.reduceToList,
      List.cons_append, List.nil_append]
    exact .note (by simpa using hoperation) .nil
  | some crud =>
    cases crud <;>
      simp only [List.map_cons, List.map_nil, String.toList_append, String.reduceToList,
        List.cons_append, List.nil_append]
    case create => exact .note (by simpa using hgiven) .nil
    case get | delete => exact .field (hbehind (by simpa using hclass)) .nil
    case update =>
      exact .field (hbehind (by simpa using hclass)) (.note (by simpa using hgiven) .nil)
    case list =>
      exact .field hend <| .field hend <| .field hend <| .field hend <| .field hend <|
        .note (by simpa using hgiven) .nil

/-- A stub starts with the declaration of its payload type. -/
theorem toList_typeStub (operation : String) (names : ModuleNames) :
    ∃ rest, (typeStub operation names).toList =
      declaration ('\n' :: memberLines ((payloadMembers operation names).map String.toList))
        rest := by
  obtain ⟨lines, hlines⟩ : ∃ lines, typeStubLines operation names =
      typeDeclaration "typePayload" (payloadMembers operation names) ++ lines := by
    simp only [typeStubLines, List.append_assoc]
    exact ⟨_, rfl⟩
  refine ⟨";\n".toList ++ lines.flatMap (fun line => line.toList ++ ['\n']), ?_⟩
  rw [typeStub, hlines, typeDeclaration]
  simp [String.toList_join, memberLines, declaration, declarationHead, List.flatMap_map]

end Lines

/-- **A type file to start from is read back.** Whatever the operation and the
module are called, its payload type has the fields of the operation. -/
theorem parse_typeStub {operation name : String} (hoperation : isIdentifier operation.toList = true)
    (hname : ∀ c ∈ name.toList, isNameChar c = true) (source : String) :
    ∃ payload, Payload.parse
        (String.ofList (unifyLineEnds (typeStub operation (moduleNames name)).toList)) source =
          .ok payload ∧
      (payload.fields.map fun f => (f.name, f.isOptional, f.typeText)) = stubFields operation := by
  set lines := payloadMembers operation (moduleNames name)
  -- the fields, one on each line
  obtain ⟨hline, hlineGiven, hlineClass⟩ := notMem_names (.inl rfl) hoperation hname
  have hmembers := isMembers_payload hline hlineGiven hlineClass
  have hlayout : IsLayout false (declaredFields operation)
      (['\n'] ++ memberLines (lines.map String.toList)) :=
    (isLayout_members hmembers).append_left (.blank (by decide) .nil) (by simp)
  -- the line ends of the declaration are read as they are
  obtain ⟨hreturn, hreturnGiven, hreturnClass⟩ := notMem_names (.inr rfl) hoperation hname
  have hfront : '\r' ∉ declarationHead.toList ++ '\n' ::
      (memberLines (lines.map String.toList) ++ ['\x7d']) := by
    have hmembers := notMem_payloadMembers (.inr rfl) hreturn hreturnGiven hreturnClass
    simpa [declarationHead, memberLines] using hmembers
  obtain ⟨rest, htext⟩ := toList_typeStub operation (moduleNames name)
  have hread : unifyLineEnds (typeStub operation (moduleNames name)).toList =
      declaration ('\n' :: memberLines (lines.map String.toList)) (unifyLineEnds rest) := by
    have hread := unifyLineEnds_append hfront rest
    simpa [htext, declaration] using hread
  obtain ⟨payload, hparse, -, hfields⟩ :=
    parse_declared hlayout (nodup_declaredFields operation) (unifyLineEnds rest) source
  refine ⟨payload, by rw [hread]; exact hparse, ?_⟩
  rw [← map_shown]
  exact hfields

end Stencil.Source
