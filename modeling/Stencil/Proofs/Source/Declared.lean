import Stencil.Proofs.Identifier
import Stencil.Proofs.Naming.Words
import Stencil.Proofs.Payload.Checked
import Stencil.Proofs.Request.Valid
import Stencil.Proofs.Source.Reading
import Stencil.Source.Controller
import Stencil.Source.Service

/-!
# Stencil — the names that a generated function declares

`Handler.declared` reads the lines of a generated file and collects what they
declare in the function: its parameters, and the constants at the top of its
body. For services and controllers these are the names their statements bind,
so the fields of the payload stand among the names that the function has of its
own. The fields differ from each other; nothing keeps a field from having one of
the function's own names, and such a field is the only name declared twice.

Main results:

* `declared_eq_bound` — the text of a handler declares what its parts bind;
* `declared_functions` — what services and controllers declare, and when no name
  is declared twice.
-/

namespace Stencil.Source

open Stencil.Naming Stencil.Payload Stencil.Text

/-! ## Reading declarations -/

/-- The items of a list with commas, without the blanks around them. -/
def listed (cs : List Char) : List (List Char) :=
  ((pieces ',' cs).map trim).filter (· ≠ [])

/-- The parameters between the parentheses of a line, each before its type. -/
def parametersIn (line : List Char) : List String :=
  (listed (upTo ')' (behind '(' line))).map fun p => String.ofList (upTo ':' p)

/-- What stands behind a `const`: a pattern between braces, or one name. -/
def constantsIn : List Char → List String
  | '\x7b' :: rest => (listed (upTo '\x7d' rest)).map String.ofList
  | rest => [String.ofList (upTo ' ' rest)]

/-- What a line of a generated file declares in the file's function. Lines that
are further in belong to inner blocks. -/
def declaredIn (line : String) : List String :=
  match dropWord "export default async function " line.toList with
  | some rest => parametersIn rest
  | none =>
    match dropWord "  const " line.toList with
    | some rest => constantsIn rest
    | none => []

/-- The names that the text of a file declares in its function, in order. -/
def Handler.declared (h : Handler) : List String :=
  h.fileLines.flatMap declaredIn

/-! ## Lists of names -/

theorem listed_blank {cs : List Char} (h : cs.all isBlank = true) : listed cs = [] := by
  have hcomma : ',' ∉ cs := notMem_of_all h rfl
  have htrim : trim cs = [] := trimWhere_eq_nil_iff.mpr (List.all_eq_true.mp h)
  simp [listed, pieces_of_notMem hcomma, htrim]

/-- An item before the first comma is the first one that is listed. -/
theorem listed_append_comma {item : List Char} (hitem : ',' ∉ item) (hne : trim item ≠ [])
    (cs : List Char) : listed (item ++ ',' :: cs) = trim item :: listed cs := by
  simp [listed, pieces_append_sep hitem, hne]

theorem listed_of_notMem {item : List Char} (hitem : ',' ∉ item) (hne : trim item ≠ []) :
    listed item = [trim item] := by
  simp [listed, pieces_of_notMem hitem, hne]

/-- What can be an item of a list: a text without commas and without blanks
around it. -/
structure IsItem (cs : List Char) : Prop where
  nonempty : cs ≠ []
  comma : ',' ∉ cs
  trim : trim cs = cs

theorem IsItem.of_isIdentifier {cs : List Char} (h : isIdentifier cs = true) : IsItem cs where
  nonempty := by
    rintro rfl
    exact absurd h (by decide)
  comma := notMem_of_isIdentifier h (by decide)
  trim := trim_of_isIdentifier h

theorem IsItem.trim_between {item : List Char} (h : IsItem item) {front : List Char}
    (hfront : front.all isBlank = true) (back : List Char) (hback : back.all isBlank = true) :
    Text.trim (front ++ (item ++ back)) = item := by
  rw [Text.trim, trimWhere_append_left (List.all_eq_true.mp hfront),
    trimWhere_append_right (List.all_eq_true.mp hback)]
  exact h.trim

/-- A list is read back item by item, whatever blanks stand around it. -/
theorem listed_intercalate {items : List (List Char)} (h : ∀ item ∈ items, IsItem item)
    (front back : List Char) (hfront : front.all isBlank = true)
    (hback : back.all isBlank = true) :
    listed (front ++ ([',', ' '].intercalate items ++ back)) = items := by
  -- what stands before the first item changes on the way
  induction items generalizing front with
  | nil =>
    rw [List.intercalate_nil, List.nil_append]
    refine listed_blank ?_
    rw [List.all_append, hfront, hback]
    rfl
  | cons item items ih =>
    have hitem := h item (by simp)
    have hcomma : ',' ∉ front := notMem_of_all hfront rfl
    cases items with
    | nil =>
      have htrim := hitem.trim_between hfront back hback
      rw [List.intercalate_singleton, listed_of_notMem, htrim]
      · simp only [List.mem_append, not_or]
        exact ⟨hcomma, hitem.comma, notMem_of_all hback rfl⟩
      · rw [htrim]
        exact hitem.nonempty
    | cons next items =>
      -- the space behind a comma stands before the next item
      have hrest := ih (fun i hi => h i (List.mem_cons_of_mem item hi)) [' '] rfl
      have htrim := hitem.trim_between hfront [] rfl
      rw [List.append_nil] at htrim
      have hcut : front ++ ([',', ' '].intercalate (item :: next :: items) ++ back) =
          (front ++ item) ++ ',' ::
            ([' '] ++ ([',', ' '].intercalate (next :: items) ++ back)) := by
        simp [List.intercalate_cons_cons]
      rw [hcut, listed_append_comma, htrim, hrest]
      · simp only [List.mem_append, not_or]
        exact ⟨hcomma, hitem.comma⟩
      · rw [htrim]
        exact hitem.nonempty

/-! ## The lines of a handler -/

/-- A declaration at the top of the body. -/
theorem declaredIn_const (text : String) :
    declaredIn (Handler.indented ("const " ++ text)) = constantsIn text.toList := by
  have hline : (Handler.indented ("const " ++ text)).toList = "  const ".toList ++ text.toList := by
    simp [Handler.indented]
  have hopening :
      dropWord "export default async function " ("  const ".toList ++ text.toList) = none := rfl
  rw [declaredIn, hline, hopening, dropWord_append]

/-- A line of the body that starts otherwise declares nothing. -/
theorem declaredIn_indented {text : String} (h : text.toList.head? ≠ some 'c') :
    declaredIn (Handler.indented text) = [] := by
  rw [Handler.indented]
  split
  · rfl
  · rw [declaredIn, String.toList_append]
    cases htext : text.toList with
    | nil => rfl
    | cons c cs =>
      have hconst : dropWord "  const " ("  ".toList ++ c :: cs) = none := by
        rw [dropWord, if_neg]
        intro hprefix
        obtain ⟨rest, hrest⟩ := List.isPrefixOf_iff_prefix.mp hprefix
        obtain ⟨hc, -⟩ := List.cons.inj (List.cons.inj (List.cons.inj hrest).2).2
        exact h (by rw [htext, ← hc]; rfl)
      have hopening :
          dropWord "export default async function " ("  ".toList ++ c :: cs) = none := rfl
      rw [hopening, hconst]

theorem declaredIn_import (i : Import) : declaredIn i.render = [] := by
  simp only [declaredIn, Import.render, String.toList_append, List.append_assoc]
  rfl

/-- A constant with a name of its own. -/
theorem declaredIn_bind {name : String} (h : isIdentifier name.toList = true) (value : String) :
    declaredIn (Handler.indented ("const " ++ name ++ " = " ++ value ++ ";")) = [name] := by
  have hline : "const " ++ name ++ " = " ++ value ++ ";" =
      "const " ++ (name ++ " " ++ ("= " ++ value ++ ";")) := by
    simp [← String.toList_inj]
  have hname : constantsIn (name.toList ++ ' ' :: ("= " ++ value ++ ";").toList) = [name] := by
    have hspace : ' ' ∉ name.toList := notMem_of_isIdentifier h (by decide)
    obtain ⟨c, rest, hcs, hc⟩ := exists_cons_of_isIdentifier h
    have hbrace : c ≠ '\x7b' := ne_of_isIdentifierPart hc (by decide)
    rw [constantsIn, upTo_append hspace, String.ofList_toList]
    rw [hcs]
    exact fun cs heq => hbrace (List.cons.inj heq).1
  rw [hline, declaredIn_const, String.toList_append, String.toList_append, List.append_assoc]
  exact hname

/-- The names between the braces of a payload's pattern. -/
theorem constantsIn_destructuring {fields : List Field}
    (h : ∀ f ∈ fields, isIdentifier f.name.toList = true) (rest : List Char) :
    constantsIn ((destructuring fields).toList ++ rest) = fields.map (·.name) := by
  cases hnames : fields.map (·.name) with
  | nil =>
    have hlisted : listed [] = [] := listed_blank rfl
    simp [destructuring, hnames, braced, constantsIn, upTo, hlisted]
  | cons first names =>
    have hitems : ∀ item ∈ (first :: names).map String.toList, isIdentifier item = true := by
      intro item hitem
      obtain ⟨name, hname, rfl⟩ := List.mem_map.mp hitem
      obtain ⟨f, hf, rfl⟩ := List.mem_map.mp (hnames ▸ hname)
      exact h f hf
    have hlisted := listed_intercalate (fun item hitem => .of_isIdentifier (hitems item hitem))
      [' '] [' '] rfl rfl
    have hbrace : '\x7d' ∉ [' '] ++
        ([',', ' '].intercalate ((first :: names).map String.toList) ++ [' ']) := by
      simp only [List.mem_append, List.mem_singleton, not_or]
      exact ⟨by decide, notMem_intercalate (by decide) fun item hitem =>
        notMem_of_isIdentifier (hitems item hitem) (by decide), by decide⟩
    have hpattern : (destructuring fields).toList ++ rest = '\x7b' :: ([' '] ++
        ([',', ' '].intercalate ((first :: names).map String.toList) ++ [' ']) ++
          '\x7d' :: rest) := by
      simp [destructuring, braced, joinWith, hnames, String.toList_intercalate]
    rw [hpattern, constantsIn, upTo_append hbrace, hlisted, List.map_map]
    simp

/-! ## What a handler declares -/

/-- A statement whose lines can be read: what it binds are identifiers, and lines
that bind nothing do not look as if they did. -/
def Statement.IsReadable : Statement → Prop
  | .bind name _ => isIdentifier name.toList = true
  | .takeApart fields _ => ∀ f ∈ fields, isIdentifier f.name.toList = true
  | .lines texts => ∀ t ∈ texts, t.toList.head? ≠ some 'c'

theorem declared_statement {s : Statement} (h : s.IsReadable) :
    (s.texts.map Handler.indented).flatMap declaredIn = s.bound := by
  cases s with
  | bind name value => simpa [Statement.texts, Statement.bound] using declaredIn_bind h value
  | takeApart fields value =>
    have hline : "const " ++ destructuring fields ++ " = " ++ value ++ ";" =
        "const " ++ (destructuring fields ++ (" = " ++ value ++ ";")) := by
      simp [← String.toList_inj]
    have hnames := constantsIn_destructuring h (" = " ++ value ++ ";").toList
    rw [← String.toList_append, ← declaredIn_const, ← hline] at hnames
    simpa [Statement.texts, Statement.bound] using hnames
  | lines texts =>
    rw [Statement.bound, Statement.texts, List.flatMap_map, List.flatMap_eq_nil_iff]
    exact fun t ht => declaredIn_indented (h t ht)

/-- A parameter that can be read: name and type are identifiers. -/
structure Parameter.IsReadable (p : Parameter) : Prop where
  name : isIdentifier p.name.toList = true
  type : isIdentifier p.type.toList = true

namespace Parameter.IsReadable

variable {p : Parameter}

theorem notMem (h : p.IsReadable) {c : Char} (hc : isIdentifierPart c = false)
    (hmark : c ≠ ':' ∧ c ≠ ' ') : c ∉ p.render.toList := by
  simp only [Parameter.render, String.toList_append, List.mem_append, not_or]
  refine ⟨⟨notMem_of_isIdentifier h.name hc, ?_⟩, notMem_of_isIdentifier h.type hc⟩
  simpa using hmark

theorem isItem (h : p.IsReadable) : IsItem p.render.toList where
  nonempty := by
    simp [Parameter.render]
  comma := h.notMem (by decide) (by decide)
  trim := by
    obtain ⟨a, as, hname, ha⟩ := exists_cons_of_isIdentifier h.name
    obtain ⟨bs, b, htype, hb⟩ := exists_concat_of_isIdentifier h.type
    have hrender : p.render.toList = a :: (as ++ ": ".toList ++ bs) ++ [b] := by
      simp [Parameter.render, hname, htype]
    rw [hrender]
    refine trimWhere_eq_self (fun c hc => ?_) fun c hc => ?_
    · obtain rfl : a = c := by simpa using hc
      exact isBlank_of_isIdentifierPart ha
    · rw [List.getLast?_concat] at hc
      obtain rfl := Option.some.inj hc
      exact isBlank_of_isIdentifierPart hb

/-- The name of a parameter stands before its type. -/
theorem upTo_render (h : p.IsReadable) : String.ofList (upTo ':' p.render.toList) = p.name := by
  have hcolon : ':' ∉ p.name.toList := notMem_of_isIdentifier h.name (by decide)
  have hrender : p.render.toList = p.name.toList ++ ':' :: ' ' :: p.type.toList := by
    simp [Parameter.render]
  rw [hrender, upTo_append hcolon, String.ofList_toList]

end Parameter.IsReadable

/-- The parameters of the line that opens a function. -/
theorem declaredIn_opening {h : Handler} (hname : '(' ∉ h.name.toList)
    (hparameters : ∀ p ∈ h.parameters, p.IsReadable) :
    declaredIn h.opening = h.parameters.map (·.name) := by
  have hitems : ∀ item ∈ h.parameters.map (·.render.toList), IsItem item ∧ ')' ∉ item := by
    intro item hitem
    obtain ⟨p, hp, rfl⟩ := List.mem_map.mp hitem
    exact ⟨(hparameters p hp).isItem, (hparameters p hp).notMem (by decide) (by decide)⟩
  have hlisted := listed_intercalate (fun item hitem => (hitems item hitem).1) [] [] rfl rfl
  rw [List.nil_append, List.append_nil] at hlisted
  have hclosing : ')' ∉ [',', ' '].intercalate (h.parameters.map (·.render.toList)) :=
    notMem_intercalate (by decide) fun item hitem => (hitems item hitem).2
  have hjoined : (", ".intercalate (h.parameters.map Parameter.render)).toList =
      [',', ' '].intercalate (h.parameters.map (·.render.toList)) := by
    rw [String.toList_intercalate, List.map_map]
    rfl
  obtain ⟨rest, hline⟩ := h.exists_opening
  rw [hjoined] at hline
  rw [declaredIn, hline, dropWord_append]
  show parametersIn _ = _
  rw [parametersIn, behind_append hname, upTo_append hclosing, hlisted, List.map_map]
  exact List.map_congr_left fun p hp => (hparameters p hp).upTo_render

/-- **What the text of a handler declares is what its parts bind.** -/
theorem declared_eq_bound {h : Handler} (hname : '(' ∉ h.name.toList)
    (hparameters : ∀ p ∈ h.parameters, p.IsReadable) (hbody : ∀ s ∈ h.body, s.IsReadable) :
    h.declared = h.bound := by
  have himports : (h.imports.map Import.render).flatMap declaredIn = [] := by
    rw [List.flatMap_map, List.flatMap_eq_nil_iff]
    exact fun i _ => declaredIn_import i
  have hstatements : ((h.body.flatMap Statement.texts).map Handler.indented).flatMap declaredIn =
      h.body.flatMap Statement.bound := by
    rw [List.map_flatMap, List.flatMap_assoc]
    exact List.flatMap_congr fun s hs => declared_statement (hbody s hs)
  have hempty : [""].flatMap declaredIn = [] := rfl
  have hclosing : ["\x7d"].flatMap declaredIn = [] := rfl
  simp only [Handler.declared, Handler.fileLines, List.flatMap_append, himports, hempty, hclosing,
    hstatements, List.flatMap_singleton, declaredIn_opening hname hparameters, List.nil_append,
    List.append_nil, Handler.bound]

/-! ## Services and controllers -/

/-- The constants with which a service works out the page of a listing. -/
def pageNames (operation : String) (p : Payload) : List String :=
  if operation = "list" ∧ "page" ∈ p.names ∧ "limit" ∈ p.names then ["pageSize", "offset"] else []

/-- The parameters of a controller. -/
def parameterNames : Framework → List String
  | .express => ["req", "res"]
  | .hono => ["c"]

section Functions

variable {operation given name : String} {p : Payload}

theorem isSome_find? {field : String} : (p.find? field).isSome = true ↔ field ∈ p.names := by
  simp [Payload.find?, Payload.names]

theorem bound_servicePrelude :
    (servicePrelude operation p).flatMap Statement.bound = pageNames operation p := by
  have hlist : Crud.ofName? operation = some .list ↔ operation = "list" :=
    Crud.ofName?_eq_some_iff
  have hasks : asksForPage p = true ↔ "page" ∈ p.names ∧ "limit" ∈ p.names := by
    rw [asksForPage, Bool.and_eq_true, isSome_find?, isSome_find?]
  rw [servicePrelude, pageNames]
  simp only [hlist, hasks]
  split
  · rfl
  · rfl

/-- A function's name has no parenthesis. -/
theorem paren_notMem_functionName {what : String} (hname : checkModuleName given = .ok name)
    (hoperation : isDeclarable operation = true) (hwhat : '(' ∉ what.toList) :
    '(' ∉ (functionName operation (moduleNames name) what).toList := by
  simp only [functionName, String.toList_append, List.mem_append, not_or]
  refine ⟨⟨fun hmem => ?_, fun hmem => ?_⟩, hwhat⟩
  · rcases char_of_isDeclarable hoperation _ hmem with hpart | hfeed
    · exact absurd hpart (by decide)
    · exact absurd hfeed (by decide)
  · have halphanum := alphanum_className (checkModuleName_eq_ok hname).2 _ hmem
    exact absurd halphanum (by decide)

/-- The lines that work out a page can be read back. -/
theorem isReadable_servicePrelude (operation : String) (p : Payload) :
    ∀ s ∈ servicePrelude operation p, s.IsReadable := by
  intro s hs
  rw [servicePrelude] at hs
  split at hs
  · simp only [pageStatements, List.mem_cons, List.not_mem_nil, or_false] at hs
    rcases hs with rfl | rfl
    · rfl
    · rfl
  · exact absurd hs List.not_mem_nil

theorem declared_service (hname : checkModuleName given = .ok name)
    (hoperation : isDeclarable operation = true)
    (hfields : ∀ f ∈ p.fields, isIdentifier f.name.toList = true) :
    (service operation (moduleNames name) p).declared =
      ["payload"] ++ p.names ++ (pageNames operation p ++ ["input"]) := by
  rw [declared_eq_bound]
  · simp [Handler.bound, service, Statement.bound, bound_servicePrelude, Payload.names]
  · exact paren_notMem_functionName hname hoperation (by decide)
  · intro parameter hparameter
    obtain rfl := List.mem_singleton.mp hparameter
    exact ⟨rfl, rfl⟩
  · intro s hs
    simp only [service, List.cons_append, List.mem_cons, List.mem_append, List.not_mem_nil,
      or_false] at hs
    rcases hs with rfl | hs | rfl | rfl
    · exact hfields
    · exact isReadable_servicePrelude operation p s hs
    · rfl
    · -- an empty line, a comment, and the answer
      have hcomment : ("// " ++ (moduleNames name).constant ++
          ": persist or query \x60input\x60 here").toList.head? = some '/' :=
        head?_append (head?_append rfl)
      have hanswer : ("return \x7b data: " ++ serviceData operation p ++
          ", error: null \x7d;").toList.head? = some 'r' := head?_append (head?_append rfl)
      simp only [Statement.IsReadable, List.forall_mem_cons, hcomment, hanswer]
      exact ⟨by decide, by decide, by decide, by simp⟩

theorem declared_controller (framework : Framework) (hname : checkModuleName given = .ok name)
    (hoperation : isDeclarable operation = true)
    (hfields : ∀ f ∈ p.fields, isIdentifier f.name.toList = true) :
    (controller operation (moduleNames name) p.fields framework).declared =
      (parameterNames framework ++ ["validation"]) ++ p.names ++ ["result"] := by
  rw [declared_eq_bound]
  · cases framework with
    | express => simp [Handler.bound, controller, controllerParameters, Statement.bound,
        parameterNames, Payload.names]
    | hono => simp [Handler.bound, controller, controllerParameters, Statement.bound,
        parameterNames, Payload.names]
  · exact paren_notMem_functionName hname hoperation (by decide)
  · intro parameter hparameter
    cases framework with
    | express =>
      simp only [controller, controllerParameters, List.mem_cons, List.not_mem_nil,
        or_false] at hparameter
      rcases hparameter with rfl | rfl
      · exact ⟨rfl, rfl⟩
      · exact ⟨rfl, rfl⟩
    | hono =>
      obtain rfl := List.mem_singleton.mp hparameter
      exact ⟨rfl, rfl⟩
  · intro s hs
    simp only [controller, List.mem_cons, List.not_mem_nil, or_false] at hs
    rcases hs with rfl | rfl | rfl | rfl | rfl
    · rfl
    · -- the lines that refuse an input declare nothing
      rw [Statement.IsReadable]
      cases framework with
      | express => decide
      | hono => decide
    · exact hfields
    · rfl
    · intro t ht
      obtain rfl := List.mem_singleton.mp ht
      have hhead : (sendResult (successStatus operation) framework).toList.head? = some 'r' := by
        cases framework with
        | express => exact head?_append (head?_append rfl)
        | hono => exact head?_append (head?_append rfl)
      rw [hhead]
      decide

end Functions

/-- Different names among a function's own are declared once each if and only if
none of them is one of its own. -/
theorem nodup_among_iff {front names back : List String} (hnames : names.Nodup)
    (hown : (front ++ back).Nodup) :
    (front ++ names ++ back).Nodup ↔ ∀ n ∈ names, n ∉ front ++ back := by
  obtain ⟨hfront, hback, hapart⟩ := List.nodup_append.mp hown
  simp only [List.nodup_append, List.mem_append, not_or]
  constructor
  · rintro ⟨⟨-, -, hleft⟩, -, hright⟩ n hn
    exact ⟨fun hmem => hleft n hmem n hn rfl, fun hmem => hright n (.inr hn) n hmem rfl⟩
  · intro h
    refine ⟨⟨hfront, hnames, ?_⟩, hback, ?_⟩
    · rintro a ha b hb rfl
      exact (h a hb).1 ha
    · rintro a (ha | ha) b hb rfl
      · exact hapart a ha a hb rfl
      · exact (h a ha).2 hb

theorem nodup_pageNames (operation : String) (p : Payload) :
    (["payload"] ++ (pageNames operation p ++ ["input"])).Nodup := by
  rw [pageNames]
  split
  · decide
  · decide

theorem nodup_parameterNames (framework : Framework) :
    (parameterNames framework ++ ["validation"] ++ ["result"]).Nodup := by
  cases framework with
  | express => decide
  | hono => decide

/-- **The names that generated functions declare.** For every payload that is read,
every operation and both frameworks, the service declares `payload`, the fields,
the constants of a page if it works one out, and `input`; the controller declares
its parameters, `validation`, the fields and `result`. Each name is declared once
if and only if no field has one of the function's own names. -/
theorem declared_functions {text source given name operation : String} {p : Payload}
    (framework : Framework) (hparse : Payload.parse text source = .ok p)
    (hname : checkModuleName given = .ok name) (hoperation : isDeclarable operation = true) :
    let ofService := (service operation (moduleNames name) p).declared
    let ofController := (controller operation (moduleNames name) p.fields framework).declared
    ofService = ["payload"] ++ p.names ++ (pageNames operation p ++ ["input"]) ∧
    (ofService.Nodup ↔
      ∀ field ∈ p.names, field ∉ ["payload"] ++ (pageNames operation p ++ ["input"])) ∧
    ofController = (parameterNames framework ++ ["validation"]) ++ p.names ++ ["result"] ∧
    (ofController.Nodup ↔
      ∀ field ∈ p.names, field ∉ (parameterNames framework ++ ["validation"]) ++ ["result"]) := by
  have hnames : p.names.Nodup := nodup_names_of_parse hparse
  have hfields : ∀ f ∈ p.fields, isIdentifier f.name.toList = true :=
    fun f hf => (parse_characters hparse f hf).1
  intro ofService ofController
  have hservice : ofService = _ := declared_service hname hoperation hfields
  have hcontroller : ofController = _ := declared_controller framework hname hoperation hfields
  refine ⟨hservice, ?_, hcontroller, ?_⟩
  · rw [hservice]
    exact nodup_among_iff hnames (nodup_pageNames operation p)
  · rw [hcontroller]
    exact nodup_among_iff hnames (nodup_parameterNames framework)

/-- A listing whose input has an offset of its own declares it twice in the service
and once in the controller. -/
theorem declared_offset :
    ¬(service "list" (moduleNames "todo")
        ⟨[⟨"page", false, "number", some 1⟩, ⟨"limit", false, "number", some 1⟩,
          ⟨"offset", true, "number", some 1⟩], "t"⟩).declared.Nodup ∧
      (controller "list" (moduleNames "todo")
        [⟨"page", false, "number", some 1⟩, ⟨"limit", false, "number", some 1⟩,
          ⟨"offset", true, "number", some 1⟩] .hono).declared.Nodup := by
  have hparse : Payload.parse
      "export type typePayload = \x7bpage: number; limit: number; offset?: number\x7d" "t" =
        .ok ⟨[⟨"page", false, "number", some 1⟩, ⟨"limit", false, "number", some 1⟩,
          ⟨"offset", true, "number", some 1⟩], "t"⟩ := rfl
  have hname : checkModuleName " todo" = .ok "todo" := rfl
  have hoperation : isDeclarable "list" = true := rfl
  obtain ⟨-, hservice, -, hcontroller⟩ := declared_functions .hono hparse hname hoperation
  refine ⟨fun hnodup => ?_, hcontroller.mpr (by decide)⟩
  exact absurd (hservice.mp hnodup "offset" (by decide)) (by decide)

end Stencil.Source
