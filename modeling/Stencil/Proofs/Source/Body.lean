import Stencil.Module.Plan
import Stencil.Proofs.Naming.Words
import Stencil.Proofs.Payload.Characters
import Stencil.Proofs.Payload.Schema
import Stencil.Proofs.Region.Body
import Stencil.Proofs.Request.Valid

/-!
# Stencil — generated files as bodies to wrap

A generated file is put together from fixed texts, names, and what the payload
type says: the names of its fields and the values of its string literals. None
of these ends in a dash, so that no generated line is a marker line, whatever an
author writes into a type file.

Main results:

* `undashed_render` — a schema, for any text of a type;
* `isBody_operationBody`, `isBody_routes` — the generated files.
-/

namespace Stencil.Source

open Stencil.Naming Stencil.Payload Stencil.Region Stencil.Text

/-! ## Texts without a dash at the end of a line -/

/-- `isUndashed` for strings. -/
def Undashed (s : String) : Prop :=
  isUndashed s.toList = true

/-- A text that is written out can be checked character by character. -/
theorem undashed_literal {cs : List Char} (h : isUndashed cs = true) :
    Undashed (String.ofList cs) := by
  rw [Undashed, String.toList_ofList]
  exact h

theorem Undashed.append {s t : String} (hs : Undashed s) (ht : Undashed t) : Undashed (s ++ t) := by
  rw [Undashed, String.toList_append]
  exact isUndashed_append hs ht

theorem undashed_join {parts : List String} (h : ∀ p ∈ parts, Undashed p) :
    Undashed (String.join parts) := by
  induction parts with
  | nil => exact undashed_literal rfl
  | cons p parts ih =>
    rw [String.join_cons]
    exact (h p (by simp)).append (ih fun q hq => h q (by simp [hq]))

theorem undashed_intercalate {separator : String} {parts : List String}
    (hseparator : Undashed separator) (h : ∀ p ∈ parts, Undashed p) :
    Undashed (separator.intercalate parts) := by
  rw [Undashed, String.toList_intercalate]
  refine isUndashed_intercalate hseparator fun p hp => ?_
  obtain ⟨part, hpart, rfl⟩ := List.mem_map.mp hp
  exact h part hpart

/-- The names of generated code hold no dash at all. -/
theorem undashed_of_chars {s : String} (h : ∀ c ∈ s.toList, isIdentifierPart c = true ∨ c = '\n') :
    Undashed s := by
  refine isUndashed_of_forall fun c hc => ⟨?_, ?_⟩ <;> rintro rfl
  · exact absurd (h _ hc) (by decide)
  · exact absurd (h _ hc) (by decide)

theorem undashed_of_alphanum {s : String} (h : ∀ c ∈ s.toList, c.isAlphanum = true) :
    Undashed s :=
  undashed_of_chars fun c hc => .inl (by simp [isIdentifierPart, h c hc])

/-! ## Names -/

/-- The names of a module that stand in its files. -/
structure UndashedNames (names : ModuleNames) : Prop where
  file : Undashed names.file
  className : Undashed names.className
  constant : Undashed names.constant

theorem undashedNames {name : String} (h : ∀ c ∈ name.toList, isNameChar c = true) :
    UndashedNames (moduleNames name) := by
  refine ⟨undashed_of_alphanum (alphanum_file h), undashed_of_alphanum (alphanum_className h),
    undashed_of_chars fun c hc => .inl ?_⟩
  rcases constantCase_chars (isNameChar_strip h) c hc with hc | rfl
  · simp [isIdentifierPart, hc]
  · decide

section Names

variable {operation : String} {names : ModuleNames}

theorem undashed_fileStem (hoperation : Undashed operation) (hnames : UndashedNames names) :
    Undashed (fileStem operation names) :=
  (hoperation.append (undashed_literal rfl)).append hnames.file

theorem undashed_functionName {what : String} (hoperation : Undashed operation)
    (hnames : UndashedNames names) (hwhat : Undashed what) :
    Undashed (functionName operation names what) :=
  (hoperation.append hnames.className).append hwhat

end Names

/-! ## Fields -/

/-- A field as it is read from a file: its name is an identifier and its type
stands on one line. -/
structure IsPlainField (f : Field) : Prop where
  name : isIdentifier f.name.toList = true
  type : ∀ c ∈ f.typeText.toList, c ≠ '\r' ∧ c ≠ '\n'

theorem IsPlainField.undashed_name {f : Field} (h : IsPlainField f) : Undashed f.name :=
  undashed_of_chars fun c hc => .inl (isIdentifierPart_of_mem h.name c hc)

/-- A choice of values: each stands on one line, between quotes. -/
theorem undashed_oneOf {values : List (List Char)}
    (h : ∀ value ∈ values, ∀ c ∈ value, c ≠ '\r' ∧ c ≠ '\n') :
    isUndashed (Schema.oneOf values).render = true := by
  have hvalues : ∀ part ∈ values.map (fun v => '\'' :: v ++ ['\'']), isUndashed part = true := by
    intro part hpart
    obtain ⟨value, hvalue, rfl⟩ := List.mem_map.mp hpart
    exact isUndashed_append (a := ['\'']) rfl
      (isUndashed_concat (h value hvalue) (by decide) (by decide) (by decide))
  have hopening : Undashed "z.enum([" := undashed_literal rfl
  have hclosing : Undashed "])" := undashed_literal rfl
  exact isUndashed_append (isUndashed_append hopening (isUndashed_intercalate rfl hvalues)) hclosing

/-- **The schema of a type on one line**, whatever the type says. -/
theorem undashed_render {type : List Char} (h : ∀ c ∈ type, c ≠ '\r' ∧ c ≠ '\n') :
    isUndashed (Schema.ofType type).render = true := by
  have hanything : Undashed "z.any()" := undashed_literal rfl
  -- on the item types, which stand in the type
  fun_induction Schema.ofType type with
  | case1 type schema hschema =>
    have htext : Undashed "z.string()" := undashed_literal rfl
    have hnumber : Undashed "z.number()" := undashed_literal rfl
    have hboolean : Undashed "z.boolean()" := undashed_literal rfl
    have hdate : Undashed "z.coerce.date()" := undashed_literal rfl
    rcases ofPrimitive?_eq_some hschema with rfl | rfl | rfl | rfl
    · exact htext
    · exact hnumber
    · exact hboolean
    · exact hdate
  | case2 type hprimitive hbrace => exact hanything
  | case3 type hprimitive hbrace item hitem ih =>
    have hitem : ∀ c ∈ item, c ≠ '\r' ∧ c ≠ '\n' :=
      fun c hc => h c (mem_of_mem_trim (mem_of_mem_arrayItem hitem c hc))
    have hopening : Undashed "z.array(" := undashed_literal rfl
    exact isUndashed_append (isUndashed_append hopening (ih hitem)) rfl
  | case4 type hprimitive hbrace hitem =>
    rw [Schema.ofUnion]
    split
    · split
      · rename_i values hvalues
        exact undashed_oneOf fun value hvalue c hc =>
          h c (mem_of_mem_trim (mem_of_mem_unionValues hvalues hvalue c hc))
      · exact hanything
    · exact hanything

theorem IsPlainField.undashed_schema {f : Field} (h : IsPlainField f) :
    isUndashed f.schema = true := by
  have hemail : Undashed ".email()" := undashed_literal rfl
  have hurl : Undashed ".url()" := undashed_literal rfl
  have hoptional : Undashed ".optional()" := undashed_literal rfl
  refine isUndashed_append (isUndashed_append (undashed_render h.type) ?_) ?_
  · cases f.refinement? with
    | none => rfl
    | some refinement =>
      cases refinement with
      | email => exact hemail
      | url => exact hurl
  · split
    · exact hoptional
    · rfl

theorem IsPlainField.undashed_schemaLine {f : Field} (h : IsPlainField f) :
    Undashed (schemaLine f) := by
  have hschema : Undashed (String.ofList f.schema) := undashed_literal h.undashed_schema
  have hname : Undashed ("  " ++ f.name ++ ": ") :=
    ((undashed_literal rfl).append h.undashed_name).append (undashed_literal rfl)
  exact (hname.append hschema).append (undashed_literal rfl)

section Fields

variable {fields : List Field}

theorem undashed_braced {items : List String} (h : ∀ i ∈ items, Undashed i) :
    Undashed (braced items) := by
  rw [braced.eq_def]
  split
  · exact undashed_literal rfl
  · have hitems : Undashed (joinWith ", " _) := undashed_intercalate (undashed_literal rfl) h
    exact ((undashed_literal rfl).append hitems).append (undashed_literal rfl)

theorem undashed_destructuring (h : ∀ f ∈ fields, IsPlainField f) :
    Undashed (destructuring fields) := by
  refine undashed_braced fun i hi => ?_
  obtain ⟨f, hf, rfl⟩ := List.mem_map.mp hi
  exact (h f hf).undashed_name

theorem undashed_fieldObject (h : ∀ f ∈ fields, IsPlainField f) :
    Undashed (fieldObject fields) := by
  refine undashed_braced fun i hi => ?_
  obtain ⟨f, hf, rfl⟩ := List.mem_map.mp hi
  exact ((h f hf).undashed_name.append (undashed_literal rfl)).append (h f hf).undashed_name

theorem undashed_validationStub (h : ∀ f ∈ fields, IsPlainField f) :
    Undashed (validationStub fields) := by
  rw [validationStub.eq_def]
  split
  · exact undashed_literal rfl
  · refine undashed_intercalate (undashed_literal rfl) fun line hline => ?_
    rcases List.mem_append.mp hline with hline | hline
    · rcases List.mem_cons.mp hline with rfl | hline
      · exact undashed_literal rfl
      · obtain ⟨f, hf, rfl⟩ := List.mem_map.mp hline
        exact (h f hf).undashed_schemaLine
    · obtain rfl := List.mem_singleton.mp hline
      exact undashed_literal rfl

end Fields

/-! ## Parts of files -/

theorem undashed_import {i : Import} (hbinding : Undashed i.binding.render)
    (horigin : Undashed i.origin.render) : Undashed i.render := by
  have hbound : Undashed ("import " ++ i.binding.render ++ " from '") :=
    ((undashed_literal rfl).append hbinding).append (undashed_literal rfl)
  exact (hbound.append horigin).append (undashed_literal rfl)

theorem undashed_bracedNames {names : List String} (h : ∀ n ∈ names, Undashed n) :
    Undashed (bracedNames names) :=
  ((undashed_literal rfl).append (undashed_intercalate (undashed_literal rfl) h)).append
    (undashed_literal rfl)

/-- Names imported from a package. -/
theorem undashed_fromPackage {names : List String} {package : String}
    (hnames : ∀ n ∈ names, Undashed n) (hpackage : Undashed package) :
    Undashed (Import.render ⟨.named names, .package package⟩) :=
  undashed_import (undashed_bracedNames hnames) hpackage

theorem undashed_parameter {p : Parameter} (hname : Undashed p.name) (htype : Undashed p.type) :
    Undashed p.render :=
  (hname.append (undashed_literal rfl)).append htype

/-- A file beside the importing one. -/
theorem undashed_beside {directory file : String} (hdirectory : Undashed directory)
    (hfile : Undashed file) : Undashed (Origin.beside directory file).render :=
  (((undashed_literal rfl).append hdirectory).append (undashed_literal rfl)).append hfile

/-- The lines of a statement. -/
def Statement.Undashed (s : Statement) : Prop :=
  ∀ t ∈ s.texts, Source.Undashed t

theorem undashed_bind {name value : String} (hname : Undashed name) (hvalue : Undashed value) :
    (Statement.bind name value).Undashed := by
  intro t ht
  obtain rfl := List.mem_singleton.mp ht
  have hbound : Undashed ("const " ++ name ++ " = ") :=
    ((undashed_literal rfl).append hname).append (undashed_literal rfl)
  exact (hbound.append hvalue).append (undashed_literal rfl)

theorem undashed_takeApart {fields : List Field} {value : String}
    (hfields : ∀ f ∈ fields, IsPlainField f) (hvalue : Undashed value) :
    (Statement.takeApart fields value).Undashed :=
  undashed_bind (undashed_destructuring hfields) hvalue

theorem undashed_indented {text : String} (h : Undashed text) :
    Undashed (Handler.indented text) := by
  rw [Handler.indented]
  split
  · exact undashed_literal rfl
  · exact (undashed_literal rfl).append h

/-- A file of lines. -/
theorem undashed_lines {texts : List String} (h : ∀ t ∈ texts, Undashed t) :
    Undashed (String.join (texts.map (· ++ "\n"))) := by
  refine undashed_join fun p hp => ?_
  obtain ⟨t, ht, rfl⟩ := List.mem_map.mp hp
  exact (h t ht).append (undashed_literal rfl)

/-- The line that opens a function. -/
theorem undashed_opening {h : Handler} (hname : Undashed h.name)
    (hparameters : ∀ p ∈ h.parameters, Undashed p.render)
    (hresult : ∀ type, h.result? = some type → Undashed type) : Undashed h.opening := by
  have hlist : Undashed (", ".intercalate (h.parameters.map Parameter.render)) := by
    refine undashed_intercalate (undashed_literal rfl) fun t ht => ?_
    obtain ⟨p, hp, rfl⟩ := List.mem_map.mp ht
    exact hparameters p hp
  have hhead : Undashed ("export default async function " ++ h.name ++ "(") :=
    ((undashed_literal rfl).append hname).append (undashed_literal rfl)
  refine (((hhead.append hlist).append (undashed_literal rfl)).append ?_).append
    (undashed_literal rfl)
  split
  · rename_i type htype
    exact (undashed_literal rfl).append (hresult type htype)
  · exact undashed_literal rfl

/-- The parts of a file with one function. -/
theorem undashed_handler {h : Handler} (himports : ∀ i ∈ h.imports, Undashed i.render)
    (hopening : Undashed h.opening) (hbody : ∀ s ∈ h.body, s.Undashed) : Undashed h.render := by
  refine undashed_lines fun t ht => ?_
  simp only [Handler.fileLines, List.mem_append, List.mem_map, List.mem_flatMap,
    List.mem_singleton] at ht
  rcases ht with (((⟨i, hi, rfl⟩ | rfl) | rfl) | ⟨text, ⟨s, hs, htext⟩, rfl⟩) | rfl
  · exact himports i hi
  · exact undashed_literal rfl
  · exact hopening
  · exact undashed_indented (hbody s hs text htext)
  · exact undashed_literal rfl

/-! ## The files -/

section Files

variable {operation : String} {names : ModuleNames}

/-- Types imported from the type file of the operation. -/
theorem undashed_fromTypes {types : List String} (hoperation : Undashed operation)
    (hnames : UndashedNames names) (htypes : ∀ t ∈ types, Undashed t) :
    Undashed (Import.render ⟨.types types, .beside typesDirectory (fileStem operation names)⟩) := by
  have hbinding : Undashed (Binding.types types).render :=
    (undashed_literal rfl).append (undashed_bracedNames htypes)
  exact undashed_import hbinding
    (undashed_beside (undashed_literal rfl) (undashed_fileStem hoperation hnames))

theorem undashed_serviceData (operation : String) (payload : Payload) :
    Undashed (serviceData operation payload) := by
  have hmetadata : Undashed (listingMetadata payload) := by
    rw [listingMetadata]
    split
    · exact undashed_literal rfl
    · exact undashed_literal rfl
  refine Undashed.append ?_ (undashed_literal rfl)
  split
  · exact ((undashed_literal rfl).append hmetadata).append (undashed_literal rfl)
  · split
    · exact undashed_literal rfl
    · exact undashed_literal rfl
  · exact undashed_literal rfl

theorem undashed_servicePrelude (operation : String) (payload : Payload) :
    ∀ s ∈ servicePrelude operation payload, s.Undashed := by
  rw [servicePrelude]
  split
  · intro s hs
    simp only [pageStatements, List.mem_cons, List.not_mem_nil, or_false] at hs
    rcases hs with rfl | rfl
    · exact undashed_bind (undashed_literal rfl)
        ((undashed_literal rfl).append (undashed_of_alphanum (List.all_eq_true.mp (by decide))))
    · exact undashed_bind (undashed_literal rfl) (undashed_literal rfl)
  · simp

theorem undashed_service {payload : Payload} (hoperation : Undashed operation)
    (hnames : UndashedNames names) (hfields : ∀ f ∈ payload.fields, IsPlainField f) :
    Undashed (service operation names payload).render := by
  refine undashed_handler (fun i hi => ?_) (undashed_opening ?_ (fun p hp => ?_) ?_) fun s hs => ?_
  · obtain rfl := List.mem_singleton.mp hi
    have htypes : ∀ n ∈ ["typePayload", "typeResult", "typeResultData"], Undashed n := by
      simp only [List.forall_mem_cons]
      exact ⟨undashed_literal rfl, undashed_literal rfl, undashed_literal rfl, by simp⟩
    exact undashed_fromTypes hoperation hnames htypes
  · exact undashed_functionName hoperation hnames (undashed_literal rfl)
  · obtain rfl := List.mem_singleton.mp hp
    exact undashed_parameter (undashed_literal rfl) (undashed_literal rfl)
  · rintro type htype
    obtain rfl := Option.some.inj htype
    exact undashed_literal rfl
  · simp only [service, List.cons_append, List.mem_cons, List.mem_append, List.not_mem_nil,
      or_false] at hs
    rcases hs with rfl | hs | rfl | rfl
    · exact undashed_takeApart hfields (undashed_literal rfl)
    · exact undashed_servicePrelude operation payload s hs
    · exact undashed_bind (undashed_literal rfl) (undashed_fieldObject hfields)
    · -- the comment names the module, and the last line holds the data
      intro t ht
      simp only [Statement.texts, List.mem_cons, List.not_mem_nil, or_false] at ht
      rcases ht with rfl | rfl | rfl
      · exact undashed_literal rfl
      · exact ((undashed_literal rfl).append hnames.constant).append (undashed_literal rfl)
      · exact ((undashed_literal rfl).append (undashed_serviceData operation payload)).append
          (undashed_literal rfl)

theorem undashed_expression (source : InputSource) (framework : Framework) :
    Undashed (source.expression framework) := by
  cases source <;> cases framework <;> exact undashed_literal rfl

theorem undashed_refuseInput (framework : Framework) :
    (Statement.lines (refuseInput framework)).Undashed := by
  have herror : Undashed badInputError := undashed_literal rfl
  cases framework with
  | express =>
    simp only [Statement.Undashed, Statement.texts, refuseInput, List.forall_mem_cons]
    exact ⟨undashed_literal rfl, undashed_literal rfl, undashed_literal rfl,
      (undashed_literal rfl).append herror, undashed_literal rfl, undashed_literal rfl,
      undashed_literal rfl, undashed_literal rfl, by simp⟩
  | hono =>
    simp only [Statement.Undashed, Statement.texts, refuseInput, List.forall_mem_cons]
    exact ⟨undashed_literal rfl, undashed_literal rfl, undashed_literal rfl,
      undashed_literal rfl, (undashed_literal rfl).append herror, undashed_literal rfl,
      undashed_literal rfl, undashed_literal rfl, undashed_literal rfl, undashed_literal rfl,
      by simp⟩

theorem undashed_sendResult (operation : String) (framework : Framework) :
    Undashed (sendResult (successStatus operation) framework) := by
  have hstatus : Undashed (toString (successStatus operation)) := by
    rw [successStatus]
    split
    · exact undashed_of_alphanum (List.all_eq_true.mp (by decide))
    · exact undashed_of_alphanum (List.all_eq_true.mp (by decide))
  cases framework with
  | express => exact ((undashed_literal rfl).append hstatus).append (undashed_literal rfl)
  | hono => exact ((undashed_literal rfl).append hstatus).append (undashed_literal rfl)

theorem undashed_controllerOpening {fields : List Field} (framework : Framework)
    (hoperation : Undashed operation) (hnames : UndashedNames names) :
    Undashed (controller operation names fields framework).opening := by
  refine undashed_opening ?_ (fun p hp => ?_) fun type htype => ?_
  · exact undashed_functionName hoperation hnames (undashed_literal rfl)
  · cases framework with
    | express =>
      simp only [controller, controllerParameters, List.mem_cons, List.not_mem_nil, or_false] at hp
      rcases hp with rfl | rfl
      · exact undashed_parameter (undashed_literal rfl) (undashed_literal rfl)
      · exact undashed_parameter (undashed_literal rfl) (undashed_literal rfl)
    | hono =>
      obtain rfl := List.mem_singleton.mp hp
      exact undashed_parameter (undashed_literal rfl) (undashed_literal rfl)
  · cases framework with
    | express =>
      obtain rfl := Option.some.inj htype
      exact undashed_literal rfl
    | hono => cases htype

theorem undashed_controller {fields : List Field} (framework : Framework)
    (hoperation : Undashed operation) (hnames : UndashedNames names)
    (hfields : ∀ f ∈ fields, IsPlainField f) :
    Undashed (controller operation names fields framework).render := by
  have hservice : Undashed (serviceName operation names) :=
    undashed_functionName hoperation hnames (undashed_literal rfl)
  have hstem := undashed_fileStem hoperation hnames
  have hframework : Undashed (frameworkImport framework).render := by
    cases framework with
    | express =>
      refine undashed_fromPackage ?_ (undashed_literal rfl)
      simp only [List.forall_mem_cons]
      exact ⟨undashed_literal rfl, undashed_literal rfl, by simp⟩
    | hono =>
      exact undashed_fromPackage (List.forall_mem_singleton.mpr (undashed_literal rfl))
        (undashed_literal rfl)
  have hvalidate : ∀ n ∈ ["validatePayload"], Undashed n :=
    List.forall_mem_singleton.mpr (undashed_literal rfl)
  refine undashed_handler (fun i hi => ?_)
    (undashed_controllerOpening framework hoperation hnames) fun s hs => ?_
  · simp only [controller, List.mem_cons, List.not_mem_nil, or_false] at hi
    rcases hi with rfl | rfl | rfl
    · exact hframework
    · exact undashed_import (undashed_bracedNames hvalidate)
        (undashed_beside (undashed_literal rfl) hstem)
    · exact undashed_import hservice (undashed_beside (undashed_literal rfl) hstem)
  · simp only [controller, List.mem_cons, List.not_mem_nil, or_false] at hs
    rcases hs with rfl | rfl | rfl | rfl | rfl
    · exact undashed_bind (undashed_literal rfl)
        (((undashed_literal rfl).append (undashed_expression _ framework)).append
          (undashed_literal rfl))
    · exact undashed_refuseInput framework
    · exact undashed_takeApart hfields (undashed_literal rfl)
    · have hcall : Undashed ("await " ++ serviceName operation names ++ "(") :=
        ((undashed_literal rfl).append hservice).append (undashed_literal rfl)
      exact undashed_bind (undashed_literal rfl)
        ((hcall.append (undashed_fieldObject hfields)).append (undashed_literal rfl))
    · intro t ht
      obtain rfl := List.mem_singleton.mp ht
      exact undashed_sendResult operation framework

theorem undashed_validator {fields : List Field} (hoperation : Undashed operation)
    (hnames : UndashedNames names) (hfields : ∀ f ∈ fields, IsPlainField f) :
    Undashed (validator operation names fields).render := by
  have hz : ∀ n ∈ ["z"], Undashed n :=
    List.forall_mem_singleton.mpr (undashed_literal rfl)
  have htypes : ∀ n ∈ ["typePayload"], Undashed n :=
    List.forall_mem_singleton.mpr (undashed_literal rfl)
  have himports : Undashed (String.join ((validator operation names fields).imports.map
      (·.render ++ "\n"))) := by
    refine undashed_join fun p hp => ?_
    simp only [validator, List.mem_map, List.mem_cons, List.not_mem_nil, or_false] at hp
    obtain ⟨i, rfl | rfl, rfl⟩ := hp
    · exact (undashed_fromPackage hz (undashed_literal rfl)).append (undashed_literal rfl)
    · exact (undashed_fromTypes hoperation hnames htypes).append (undashed_literal rfl)
  exact ((((himports.append (undashed_literal rfl)).append
    (undashed_validationStub hfields)).append (undashed_literal rfl)).append
    (undashed_literal rfl)).append (undashed_literal rfl)

theorem undashed_route (hoperation : Undashed operation) :
    Undashed (Route.ofOperation operation).method ∧
      Undashed (Route.ofOperation operation).path := by
  rw [Route.ofOperation]
  split
  case h_6 => exact ⟨undashed_literal rfl, (undashed_literal rfl).append hoperation⟩
  all_goals exact ⟨undashed_literal rfl, undashed_literal rfl⟩

theorem undashed_registration {router : String} {r : Registration} (hrouter : Undashed router)
    (hmethod : Undashed r.route.method) (hpath : Undashed r.route.path)
    (hhandler : Undashed r.handler) : Undashed (r.render router) := by
  have hcalled : Undashed (router ++ "." ++ r.route.method ++ "('") :=
    ((hrouter.append (undashed_literal rfl)).append hmethod).append (undashed_literal rfl)
  exact (((hcalled.append hpath).append (undashed_literal rfl)).append hhandler).append
    (undashed_literal rfl)

theorem undashed_routes {operations : List String} (framework : Framework)
    (hoperations : ∀ o ∈ operations, Undashed o) (hnames : UndashedNames names) :
    Undashed (routes operations names framework).render := by
  have hcontroller : ∀ o ∈ operations, Undashed (controllerName o names) :=
    fun o ho => undashed_functionName (hoperations o ho) hnames (undashed_literal rfl)
  have hrouter : Undashed (routerName framework) := by
    cases framework <;> exact undashed_literal rfl
  have hnew : Undashed (newRouter framework) := by
    cases framework <;> exact undashed_literal rfl
  have hframework : Undashed (routerImport framework).render := by
    cases framework <;>
      exact undashed_fromPackage (List.forall_mem_singleton.mpr (undashed_literal rfl))
        (undashed_literal rfl)
  refine undashed_lines fun t ht => ?_
  simp only [Routes.fileLines, routes, List.mem_append, List.mem_cons, List.mem_map,
    List.not_mem_nil, or_false] at ht
  rcases ht with ((⟨i, rfl | ⟨o, ho, rfl⟩, rfl⟩ | rfl | rfl | rfl) | ⟨_, ⟨o, ho, rfl⟩, rfl⟩) |
    rfl | rfl
  · exact hframework
  · refine undashed_import (hcontroller o ho) ?_
    exact (((undashed_literal rfl).append (undashed_literal rfl)).append
      (undashed_literal rfl)).append (undashed_fileStem (hoperations o ho) hnames)
  · exact undashed_literal rfl
  · exact ((((undashed_literal rfl).append hrouter).append (undashed_literal rfl)).append
      hnew).append (undashed_literal rfl)
  · exact undashed_literal rfl
  · obtain ⟨hmethod, hpath⟩ := undashed_route (hoperations o ho)
    exact undashed_registration hrouter hmethod hpath (hcontroller o ho)
  · exact undashed_literal rfl
  · exact ((undashed_literal rfl).append hrouter).append (undashed_literal rfl)

/-! ## Bodies to wrap -/

theorem isBody_lines {texts : List String} (h : Undashed (String.join (texts.map (· ++ "\n"))))
    {t : String} (ht : t ∈ texts) {c : Char} (hc : c ∈ t.toList) (hne : c ≠ '\n') :
    IsBody (String.join (texts.map (· ++ "\n"))).toList := by
  refine isBody_of_undashed h ⟨c, ?_, hne⟩
  rw [String.toList_join]
  exact List.mem_flatMap.mpr ⟨t ++ "\n", List.mem_map_of_mem ht, by simp [hc]⟩

theorem isBody_handler {h : Handler} (hundashed : Undashed h.render) : IsBody h.render.toList := by
  -- the brace that closes the function
  have hbrace : "\x7d" ∈ h.fileLines := by simp [Handler.fileLines]
  have hchar : '\x7d' ∈ "\x7d".toList := by decide
  exact isBody_lines hundashed hbrace hchar (by decide)

theorem isBody_validator {v : Validator} (hundashed : Undashed v.render) :
    IsBody v.render.toList := by
  refine isBody_of_undashed hundashed ⟨';', ?_, by decide⟩
  simp only [Validator.render, String.toList_append, List.mem_append]
  exact .inl (.inl (.inr (by decide)))

/-- **The files of an operation** are bodies to wrap. -/
theorem isBody_operationBody {role : Role} {payload : Payload} (framework : Framework)
    (hrole : role ∈ Module.operationRoles) (hoperation : Undashed operation)
    (hnames : UndashedNames names) (hfields : ∀ f ∈ payload.fields, IsPlainField f) :
    IsBody (Module.operationBody role operation names payload framework).toList := by
  simp only [Module.operationRoles, List.mem_cons, List.not_mem_nil, or_false] at hrole
  rcases hrole with rfl | rfl | rfl
  · exact isBody_handler (undashed_service hoperation hnames hfields)
  · exact isBody_handler (undashed_controller framework hoperation hnames hfields)
  · exact isBody_validator (undashed_validator hoperation hnames hfields)

/-- **The routes** are a body to wrap. -/
theorem isBody_routes {operations : List String} (framework : Framework)
    (hoperations : ∀ o ∈ operations, Undashed o) (hnames : UndashedNames names) :
    IsBody (routes operations names framework).render.toList := by
  have hundashed := undashed_routes framework hoperations hnames
  have hexport : "export default " ++ routerName framework ++ ";" ∈
      (routes operations names framework).fileLines := by
    simp [Routes.fileLines, routes]
  refine isBody_lines hundashed hexport (c := ';') ?_ (by decide)
  simp

end Files

end Stencil.Source
