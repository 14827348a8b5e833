import Stencil.Proofs.Identifier
import Stencil.Proofs.Naming.Words
import Stencil.Proofs.Payload.Head
import Stencil.Proofs.Region.Wrap
import Stencil.Proofs.Request.Valid
import Stencil.Source.Controller
import Stencil.Source.Routes
import Stencil.Source.Service
import Stencil.Source.Validator

/-!
# Stencil — reading generated files

What other files rely on can be read off the lines of a generated file: what it
imports and from where, the function that it exports, and the routes that it
registers. Reading gives back what the file was put together from. The imports
stand together at the head and the exported function right below them, so that
they are found whatever the rest of the file says.

Main results:

* `leadingImports_append` — the imports of a file;
* `exportedName?_opening` — the function that a file exports;
* `registrationsIn_routes` — the routes that are registered;
* `ofOperation_inj` — no two operations share a route.
-/

namespace Stencil.Source

open Stencil.Naming Stencil.Payload Stencil.Region Stencil.Text

/-! ## What is read -/

/-- An import line as it is read: the name of the default export, if it takes
that, and the module specifier. -/
structure ImportLine where
  whole? : Option String
  specifier : String
  deriving DecidableEq, Repr

/-- The import that a line is. Exports by name stand between braces. -/
def readImport? (line : List Char) : Option ImportLine :=
  (dropWord "import " line).map fun rest =>
    { whole? := if '\x7b' ∈ upTo '\'' rest then none else some (String.ofList (upTo ' ' rest))
      specifier := String.ofList (upTo '\'' (behind '\'' rest)) }

/-- The imports that the lines start with. -/
def leadingImports : List (List Char) → List ImportLine
  | [] => []
  | line :: rest =>
    match readImport? line with
    | some i => i :: leadingImports rest
    | none => []

/-- The name of the function that the lines export. -/
def exportedName? (lines : List (List Char)) : Option String :=
  lines.findSome? fun line =>
    (dropWord "export default async function " line).map fun rest => String.ofList (upTo '(' rest)

/-- The registration that a line is, with either router. -/
def readRegistration? (line : List Char) : Option Registration :=
  ((dropWord "router." line).or (dropWord "app." line)).map fun rest =>
    let path := behind '\'' rest
    { route := ⟨String.ofList (upTo '(' rest), String.ofList (upTo '\'' path)⟩
      handler := String.ofList (upTo ')' (behind ' ' (behind '\'' path))) }

/-- The registrations among the lines. -/
def registrationsIn (lines : List (List Char)) : List Registration :=
  lines.filterMap readRegistration?

/-- A text starts as its first part does. -/
theorem head?_append {s t : String} {c : Char} (h : s.toList.head? = some c) :
    (s ++ t).toList.head? = some c := by
  rw [String.toList_append, List.head?_append, h, Option.some_or]

/-! ## Imports -/

/-- An import as it is read. -/
def Import.asRead (i : Import) : ImportLine where
  whole? :=
    match i.binding with
    | .whole name => some name
    | _ => none
  specifier := i.origin.render

/-- Whether an import is from a file of the module. -/
def Origin.isRelative : Origin → Bool
  | .package _ => false
  | .below _ _ => true
  | .beside _ _ => true

/-- Whether a specifier is read as one of a file: it starts with a dot. -/
def ImportLine.isRelative (i : ImportLine) : Bool :=
  i.specifier.toList.head? = some '.'

/-- The characters that end neither a line nor a text in quotes. -/
def isUnquoted (c : Char) : Bool :=
  c != '\'' && c != '\n'

theorem notMem_of_all {p : Char → Bool} {cs : List Char} (h : cs.all p = true) {c : Char}
    (hc : p c = false) : c ∉ cs := by
  intro hmem
  rw [List.all_eq_true.mp h c hmem] at hc
  exact absurd hc (by decide)

/-- An import whose line can be read: only the specifier stands in quotes, a
default export has a name, and no package is taken for a file. -/
structure Import.IsReadable (i : Import) : Prop where
  binding : i.binding.render.toList.all isUnquoted = true
  origin : i.origin.render.toList.all isUnquoted = true
  name : ∀ n, i.binding = .whole n → isIdentifier n.toList = true
  package : ∀ p, i.origin = .package p → p.toList.head? ≠ some '.'

theorem isRelative_asRead {i : Import} (h : i.IsReadable) :
    i.asRead.isRelative = i.origin.isRelative := by
  rw [ImportLine.isRelative, Import.asRead]
  cases horigin : i.origin with
  | package name => exact decide_eq_false (h.package name horigin)
  | below directory file => exact decide_eq_true (head?_append (head?_append (head?_append rfl)))
  | beside directory file => exact decide_eq_true (head?_append (head?_append (head?_append rfl)))

theorem toList_import (i : Import) :
    i.render.toList = "import ".toList ++ (i.binding.render.toList ++ " from ".toList ++
      '\'' :: (i.origin.render.toList ++ '\'' :: [';'])) := by
  simp [Import.render]

theorem readImport?_render {i : Import} (h : i.IsReadable) :
    readImport? i.render.toList = some i.asRead := by
  have hbinding : '\'' ∉ i.binding.render.toList ++ " from ".toList := by
    rw [List.mem_append, not_or]
    exact ⟨notMem_of_all h.binding rfl, by decide⟩
  have horigin : '\'' ∉ i.origin.render.toList := notMem_of_all h.origin rfl
  rw [readImport?, toList_import, dropWord_append, Option.map_some, upTo_append hbinding,
    behind_append hbinding, upTo_append horigin, String.ofList_toList, Import.asRead]
  congr 2
  -- the braces tell whether the default export is taken
  cases hname : i.binding with
  | whole name =>
    have hidentifier := h.name name hname
    have hbrace : '\x7b' ∉ (Binding.whole name).render.toList ++ " from ".toList := by
      rw [List.mem_append, not_or]
      exact ⟨notMem_of_isIdentifier hidentifier (by decide), by decide⟩
    have hspace : ' ' ∉ (Binding.whole name).render.toList :=
      notMem_of_isIdentifier hidentifier (by decide)
    have hfrom : " from ".toList = ' ' :: "from ".toList := rfl
    rw [if_neg hbrace, hfrom, List.append_assoc, List.cons_append, upTo_append hspace,
      String.ofList_toList]
    rfl
  | named names => simp [Binding.render, bracedNames]
  | types names => simp [Binding.render, bracedNames]

example : readImport? "import getTodoService from '../services/get.todo';".toList =
    some ⟨some "getTodoService", "../services/get.todo"⟩ := by decide

theorem newline_notMem_import {i : Import} (h : i.IsReadable) : '\n' ∉ i.render.toList := by
  rw [toList_import]
  simp only [List.mem_append, List.mem_cons, not_or]
  exact ⟨by decide, ⟨notMem_of_all h.binding rfl, by decide⟩, by decide,
    notMem_of_all h.origin rfl, by decide, by decide, by simp⟩

/-- **The imports of a file** are read back if an empty line ends them. -/
theorem leadingImports_append {imports : List Import} (h : ∀ i ∈ imports, i.IsReadable)
    (rest : List (List Char)) :
    leadingImports (imports.map (·.render.toList) ++ [] :: rest) = imports.map Import.asRead := by
  induction imports with
  | nil => rfl
  | cons i imports ih =>
    rw [List.forall_mem_cons] at h
    rw [List.map_cons, List.cons_append, leadingImports, readImport?_render h.1, ih h.2,
      List.map_cons]

/-! ## The lines of files -/

/-- The lines of a text that is put together from lines. -/
theorem pieces_join {texts : List String} (h : ∀ t ∈ texts, '\n' ∉ t.toList) (rest : List Char) :
    pieces '\n' ((String.join (texts.map (· ++ "\n"))).toList ++ rest) =
      texts.map String.toList ++ pieces '\n' rest := by
  induction texts with
  | nil => rfl
  | cons t texts ih =>
    rw [List.forall_mem_cons] at h
    have hfeed : (t ++ "\n").toList = t.toList ++ ['\n'] := String.toList_append
    rw [List.map_cons, String.join_cons, String.toList_append, hfeed, List.append_assoc,
      List.append_assoc, List.singleton_append, pieces_append_sep h.1, ih h.2]
    rfl

/-- A file with imports at its head and an empty line below them. -/
theorem pieces_imports {imports : List Import} (h : ∀ i ∈ imports, i.IsReadable)
    (rest : List Char) :
    pieces '\n' ((String.join (imports.map (·.render ++ "\n"))).toList ++ '\n' :: rest) =
      imports.map (·.render.toList) ++ [] :: pieces '\n' rest := by
  have htexts : ∀ t ∈ imports.map Import.render, '\n' ∉ t.toList := by
    intro t ht
    obtain ⟨i, hi, rfl⟩ := List.mem_map.mp ht
    exact newline_notMem_import (h i hi)
  have hlines := pieces_join htexts ('\n' :: rest)
  rw [List.map_map, List.map_map, pieces_sep_cons] at hlines
  exact hlines

/-- The line that opens a function, up to its parameters. -/
theorem Handler.exists_opening (h : Handler) :
    ∃ rest, h.opening.toList = "export default async function ".toList ++ (h.name.toList ++
      '(' :: ((", ".intercalate (h.parameters.map Parameter.render)).toList ++ ')' :: rest)) := by
  have hopening : ∃ result, h.opening = "export default async function " ++ h.name ++ "(" ++
      ", ".intercalate (h.parameters.map Parameter.render) ++ ")" ++ result :=
    ⟨_, String.append_assoc⟩
  have hopen : "(".toList = ['('] := rfl
  have hclose : ")".toList = [')'] := rfl
  obtain ⟨result, hresult⟩ := hopening
  refine ⟨result.toList, ?_⟩
  rw [hresult]
  simp only [String.toList_append, hopen, hclose, List.append_assoc, List.cons_append,
    List.nil_append]

/-- A handler's text: its imports, an empty line, the opening of its function, and
what comes then. -/
theorem Handler.exists_render (h : Handler) :
    ∃ rest, h.render.toList = (String.join (h.imports.map (·.render ++ "\n"))).toList ++
      '\n' :: (h.opening.toList ++ '\n' :: rest) := by
  have hempty : ("" ++ "\n").toList = ['\n'] := rfl
  have hfeed : "\n".toList = ['\n'] := rfl
  have himports : (h.imports.map Import.render).map (· ++ "\n") =
      h.imports.map (·.render ++ "\n") := List.map_map
  refine ⟨(String.join (((h.body.flatMap Statement.texts).map Handler.indented ++
    ["\x7d"]).map (· ++ "\n"))).toList, ?_⟩
  simp only [Handler.render, Handler.fileLines, List.map_append, List.map_cons, List.map_nil,
    himports, String.join_append, String.join_cons, String.join_nil, String.toList_append, hempty,
    hfeed, List.append_assoc, List.cons_append, List.nil_append]

/-- The lines of a handler. What stands in the function makes no difference. -/
theorem pieces_handler {h : Handler} (himports : ∀ i ∈ h.imports, i.IsReadable)
    (hname : isIdentifier h.name.toList = true) (rest : List Char) :
    ∃ tail more, pieces '\n' (h.render.toList ++ rest) =
      h.imports.map (·.render.toList) ++
        [] :: ("export default async function ".toList ++ (h.name.toList ++ '(' :: tail)) ::
          more := by
  obtain ⟨body, hrender⟩ := h.exists_render
  obtain ⟨parameters, hopening⟩ := h.exists_opening
  have hhead : '\n' ∉ "export default async function ".toList ++ (h.name.toList ++ ['(']) := by
    simp only [List.mem_append, not_or]
    exact ⟨by decide, notMem_of_isIdentifier hname (by decide), by decide⟩
  -- the line of the opening goes on with the parameters
  obtain ⟨tail, more, hlines⟩ := List.exists_cons_of_ne_nil (pieces_ne_nil '\n'
    ((", ".intercalate (h.parameters.map Parameter.render)).toList ++ ')' :: parameters ++
      '\n' :: (body ++ rest)))
  refine ⟨tail, more, ?_⟩
  have hcut := pieces_append hhead hlines
  simp only [List.append_assoc, List.cons_append, List.nil_append] at hcut
  rw [hrender, List.append_assoc, List.cons_append, pieces_imports himports, hopening]
  simp only [List.append_assoc, List.cons_append]
  rw [hcut]

/-- No other line of the head of a file exports a function. -/
theorem exportedName?_import (i : Import) (rest : List (List Char)) :
    exportedName? (i.render.toList :: rest) = exportedName? rest := by
  rw [exportedName?, List.findSome?_cons, toList_import]
  rfl

/-- **The function that a file exports** is found below its imports. -/
theorem exportedName?_opening {name : String} (hname : isIdentifier name.toList = true)
    (imports : List Import) (tail : List Char) (more : List (List Char)) :
    exportedName? (imports.map (·.render.toList) ++ [] ::
      ("export default async function ".toList ++ (name.toList ++ '(' :: tail)) :: more) =
        some name := by
  induction imports with
  | nil =>
    have hparen : '(' ∉ name.toList := notMem_of_isIdentifier hname (by decide)
    have hempty : dropWord "export default async function " [] = none := rfl
    simp only [exportedName?, List.map_nil, List.nil_append, List.findSome?_cons, hempty,
      dropWord_append, Option.map_none, Option.map_some, upTo_append hparen, String.ofList_toList]
  | cons i imports ih =>
    rw [List.map_cons, List.cons_append, exportedName?_import]
    exact ih

/-! ## Registrations -/

/-- A registration whose line can be read. -/
structure Registration.IsReadable (r : Registration) : Prop where
  method : isIdentifier r.route.method.toList = true
  path : r.route.path.toList.all isUnquoted = true
  handler : isIdentifier r.handler.toList = true

theorem toList_registration (framework : Framework) (r : Registration) :
    (r.render (routerName framework)).toList = (routerName framework ++ ".").toList ++
      (r.route.method.toList ++ '(' :: '\'' :: (r.route.path.toList ++
        '\'' :: ',' :: ' ' :: (r.handler.toList ++ ')' :: [';']))) := by
  simp [Registration.render]

/-- Either router is told by its name. -/
theorem dropWord_router (framework : Framework) (rest : List Char) :
    (dropWord "router." ((routerName framework ++ ".").toList ++ rest)).or
      (dropWord "app." ((routerName framework ++ ".").toList ++ rest)) = some rest := by
  cases framework with
  | express =>
    have hword : routerName .express ++ "." = "router." := rfl
    rw [hword, dropWord_append, Option.some_or]
  | hono =>
    have hword : routerName .hono ++ "." = "app." := rfl
    have hother : dropWord "router." ("app.".toList ++ rest) = none := rfl
    rw [hword, dropWord_append, hother, Option.none_or]

theorem readRegistration?_render {r : Registration} (h : r.IsReadable) (framework : Framework) :
    readRegistration? (r.render (routerName framework)).toList = some r := by
  have hmethod : '(' ∉ r.route.method.toList := notMem_of_isIdentifier h.method (by decide)
  have hquote : '\'' ∉ r.route.method.toList ++ ['('] := by
    rw [List.mem_append, not_or]
    exact ⟨notMem_of_isIdentifier h.method (by decide), by decide⟩
  have hpath : '\'' ∉ r.route.path.toList := notMem_of_all h.path rfl
  have hhandler : ')' ∉ r.handler.toList := notMem_of_isIdentifier h.handler (by decide)
  have hbehind := behind_append hquote (r.route.path.toList ++
    '\'' :: ',' :: ' ' :: (r.handler.toList ++ ')' :: [';']))
  rw [List.append_assoc, List.singleton_append] at hbehind
  -- behind the path stand a comma and a space
  have hspace : behind ' ' (',' :: ' ' :: (r.handler.toList ++ ')' :: [';'])) =
      r.handler.toList ++ ')' :: [';'] := behind_append (a := [',']) (by decide) _
  rw [toList_registration, readRegistration?, dropWord_router, Option.map_some]
  simp only [upTo_append hmethod, hbehind, upTo_append hpath, behind_append hpath, hspace,
    upTo_append hhandler, String.ofList_toList]

theorem newline_notMem_registration {r : Registration} (h : r.IsReadable) (framework : Framework) :
    '\n' ∉ (r.render (routerName framework)).toList := by
  have hrouter : '\n' ∉ (routerName framework ++ ".").toList := by
    cases framework with
    | express => decide
    | hono => decide
  rw [toList_registration]
  simp only [List.mem_append, List.mem_cons, not_or]
  exact ⟨hrouter, notMem_of_isIdentifier h.method (by decide), by decide, by decide,
    notMem_of_all h.path rfl, by decide, by decide, by decide,
    notMem_of_isIdentifier h.handler (by decide), by decide, by decide, by simp⟩

theorem readRegistration?_import (i : Import) : readRegistration? i.render.toList = none := by
  rw [toList_import, readRegistration?]
  rfl

/-- **The registrations of a file of routes** are the only lines that look like some. -/
theorem registrationsIn_routes {r : Routes} (h : ∀ g ∈ r.registrations, g.IsReadable) :
    registrationsIn (r.fileLines.map String.toList) = r.registrations := by
  have himports : registrationsIn ((r.imports.map Import.render).map String.toList) = [] := by
    rw [registrationsIn, List.map_map, List.filterMap_map, List.filterMap_eq_nil_iff]
    exact fun i _ => readRegistration?_import i
  have hregistrations : registrationsIn ((r.registrations.map
      (Registration.render (routerName r.framework))).map String.toList) = r.registrations := by
    rw [registrationsIn, List.map_map, List.filterMap_map]
    refine (List.filterMap_congr fun g hg => ?_).trans List.filterMap_some
    exact readRegistration?_render (h g hg) r.framework
  have hmaking : registrationsIn (["", "const " ++ routerName r.framework ++ " = " ++
      newRouter r.framework ++ ";", ""].map String.toList) = [] := by
    cases r.framework with
    | express => rfl
    | hono => rfl
  have hexport : registrationsIn
      (["", "export default " ++ routerName r.framework ++ ";"].map String.toList) = [] := by
    cases r.framework with
    | express => rfl
    | hono => rfl
  have happend : ∀ a b, registrationsIn (a ++ b) = registrationsIn a ++ registrationsIn b :=
    fun a b => List.filterMap_append
  simp only [Routes.fileLines, List.map_append, happend, himports, hregistrations, hmaking, hexport,
    List.nil_append, List.append_nil]

/-- The lines of a file of routes. -/
theorem pieces_routes {r : Routes} (himports : ∀ i ∈ r.imports, i.IsReadable)
    (h : ∀ g ∈ r.registrations, g.IsReadable) (rest : List Char) :
    pieces '\n' (r.render.toList ++ rest) = r.fileLines.map String.toList ++ pieces '\n' rest := by
  refine pieces_join (fun t ht => ?_) rest
  simp only [Routes.fileLines, List.mem_append, List.mem_map, List.mem_cons, List.not_mem_nil,
    or_false] at ht
  rcases ht with ((⟨i, hi, rfl⟩ | rfl | rfl | rfl) | ⟨g, hg, rfl⟩) | rfl | rfl
  · exact newline_notMem_import (himports i hi)
  · decide
  · cases r.framework with
    | express => decide
    | hono => decide
  · decide
  · exact newline_notMem_registration (h g hg) r.framework
  · decide
  · cases r.framework with
    | express => decide
    | hono => decide

/-! ## Bodies to wrap -/

theorem head?_imports {imports : List Import} (hne : imports ≠ []) (rest : List Char) :
    ((String.join (imports.map (·.render ++ "\n"))).toList ++ rest).head? = some 'i' := by
  obtain ⟨i, is, rfl⟩ := List.exists_cons_of_ne_nil hne
  rw [List.map_cons, String.join_cons, String.toList_append, String.toList_append, toList_import]
  rfl

/-- A text of lines ends with its last line. -/
theorem exists_last_join (texts : List String) {last : String} {front : List Char} {c : Char}
    (h : last.toList = front ++ [c]) : ∃ before,
      (String.join ((texts ++ [last]).map (· ++ "\n"))).toList = before ++ [c] ++ ['\n'] := by
  have hfeed : (last ++ "\n").toList = front ++ [c] ++ ['\n'] := by
    rw [String.toList_append, h]
    rfl
  refine ⟨(String.join (texts.map (· ++ "\n"))).toList ++ front, ?_⟩
  rw [List.map_append, String.join_append, String.toList_append, List.map_singleton,
    String.join_cons, String.join_nil, String.append_empty, hfeed]
  simp only [List.append_assoc]

theorem isTidy_handler {h : Handler} (hne : h.imports ≠ []) : IsTidy h.render.toList where
  head := by
    obtain ⟨rest, hrender⟩ := h.exists_render
    rw [hrender, head?_imports hne]
    decide
  last := by
    have hbrace : "\x7d".toList = [] ++ ['\x7d'] := rfl
    obtain ⟨before, hlast⟩ := exists_last_join (h.imports.map Import.render ++ [""] ++
      [h.opening] ++ (h.body.flatMap Statement.texts).map Handler.indented) hbrace
    exact ⟨before, '\x7d', hlast, by decide⟩

theorem isTidy_routes {r : Routes} (hne : r.imports ≠ []) : IsTidy r.render.toList where
  head := by
    have hsplit : ∃ rest, r.render.toList =
        (String.join (r.imports.map (·.render ++ "\n"))).toList ++ rest := by
      rw [Routes.render, Routes.fileLines]
      simp only [List.map_append, String.join_append, String.toList_append, List.append_assoc,
        List.map_map]
      exact ⟨_, rfl⟩
    obtain ⟨rest, hrender⟩ := hsplit
    rw [hrender, head?_imports hne]
    decide
  last := by
    have hexport : ("export default " ++ routerName r.framework ++ ";").toList =
        ("export default " ++ routerName r.framework).toList ++ [';'] := String.toList_append
    obtain ⟨before, hlast⟩ := exists_last_join (r.imports.map Import.render ++
      ["", "const " ++ routerName r.framework ++ " = " ++ newRouter r.framework ++ ";", ""] ++
      r.registrations.map (Registration.render (routerName r.framework)) ++ [""]) hexport
    refine ⟨before, ';', ?_, by decide⟩
    rw [← hlast, Routes.render, Routes.fileLines]
    simp only [List.append_assoc, List.cons_append, List.nil_append]

theorem isTidy_validator {v : Validator} (hne : v.imports ≠ []) : IsTidy v.render.toList where
  head := by
    simp only [Validator.render, String.toList_append, List.append_assoc]
    rw [head?_imports hne]
    decide
  last := by
    obtain ⟨front, hlast⟩ : ∃ front, ("  payloadSchema.safeParse(payload) as " ++
        "z.SafeParseReturnType<unknown, typePayload>;\n").toList = front ++ [';'] ++ ['\n'] :=
      ⟨("  payloadSchema.safeParse(payload) as " ++
        "z.SafeParseReturnType<unknown, typePayload>").toList, rfl⟩
    have hrender : v.render = String.join (v.imports.map (·.render ++ "\n")) ++
        "\nexport const payloadSchema = " ++ v.schema ++ ";\n" ++
        "\nexport const validatePayload = (payload: unknown) =>\n" ++
        ("  payloadSchema.safeParse(payload) as " ++
          "z.SafeParseReturnType<unknown, typePayload>;\n") := rfl
    rw [hrender, String.toList_append, hlast, ← List.append_assoc, ← List.append_assoc]
    exact ⟨_, ';', rfl, by decide⟩

/-! ## The files of a module -/

/-- The characters of names and of what stands between them in a file's name. -/
def isLinkChar (c : Char) : Bool :=
  isIdentifierPart c || c == '.'

/-- A text that can stand in a specifier. -/
def IsLinkText (text : String) : Prop :=
  text.toList.all isLinkChar = true

theorem IsLinkText.append {s t : String} (hs : IsLinkText s) (ht : IsLinkText t) :
    IsLinkText (s ++ t) := by
  rw [IsLinkText, String.toList_append, List.all_append, hs, ht]
  rfl

theorem IsLinkText.of_parts {text : String} (h : ∀ c ∈ text.toList, isIdentifierPart c = true) :
    IsLinkText text :=
  List.all_eq_true.mpr fun c hc => by rw [isLinkChar, h c hc, Bool.true_or]

theorem IsLinkText.unquoted {text : String} (h : IsLinkText text) :
    text.toList.all isUnquoted = true := by
  refine List.all_eq_true.mpr fun c hc => ?_
  have hlink := List.all_eq_true.mp h c hc
  have hquote : c ≠ '\'' := by
    rintro rfl
    exact absurd hlink (by decide)
  have hfeed : c ≠ '\n' := by
    rintro rfl
    exact absurd hlink (by decide)
  simp [isUnquoted, hquote, hfeed]

/-- A directory and a file in it, behind dots. -/
private theorem unquoted_specifier {dots directory file : String}
    (hdots : dots.toList.all isUnquoted = true) (hdirectory : IsLinkText directory)
    (hfile : IsLinkText file) :
    (dots ++ directory ++ "/" ++ file).toList.all isUnquoted = true := by
  have hslash : "/".toList.all isUnquoted = true := rfl
  simp only [String.toList_append, List.all_append, hdots, hdirectory.unquoted, hslash,
    hfile.unquoted, Bool.and_true]

theorem isReadable_beside {binding : Binding} {directory file : String}
    (hbinding : binding.render.toList.all isUnquoted = true)
    (hname : ∀ n, binding = .whole n → isIdentifier n.toList = true)
    (hdirectory : IsLinkText directory) (hfile : IsLinkText file) :
    (Import.mk binding (.beside directory file)).IsReadable where
  binding := hbinding
  origin := unquoted_specifier rfl hdirectory hfile
  name := hname
  package := by rintro p ⟨⟩

/-- An import of a default export. -/
theorem isReadable_whole {name directory file : String} (hname : isIdentifier name.toList = true)
    (hdirectory : IsLinkText directory) (hfile : IsLinkText file) :
    (Import.mk (.whole name) (.beside directory file)).IsReadable ∧
      (Import.mk (.whole name) (.below directory file)).IsReadable := by
  have hbinding : (Binding.whole name).render.toList.all isUnquoted = true :=
    (IsLinkText.of_parts (isIdentifierPart_of_mem hname)).unquoted
  have hidentifier : ∀ n, Binding.whole name = .whole n → isIdentifier n.toList = true := by
    rintro n ⟨⟩
    exact hname
  exact ⟨isReadable_beside hbinding hidentifier hdirectory hfile, hbinding,
    unquoted_specifier rfl hdirectory hfile, hidentifier, by rintro p ⟨⟩⟩

section Files

variable {operation name : String}

theorem isLinkText_fileStem (hoperation : isIdentifier operation.toList = true)
    (hname : ∀ c ∈ name.toList, isNameChar c = true) :
    IsLinkText (fileStem operation (moduleNames name)) := by
  have hdot : IsLinkText "." := rfl
  have hfile : IsLinkText (moduleNames name).file :=
    .of_parts fun c hc => by rw [isIdentifierPart, alphanum_file hname c hc]; rfl
  exact ((IsLinkText.of_parts (isIdentifierPart_of_mem hoperation)).append hdot).append hfile

/-- A generated function can be called. -/
theorem isIdentifier_functionName (hoperation : isIdentifier operation.toList = true)
    (hname : ∀ c ∈ name.toList, isNameChar c = true) {what : String}
    (hwhat : isIdentifier what.toList = true) :
    isIdentifier (functionName operation (moduleNames name) what).toList = true := by
  rw [functionName, String.toList_append, String.toList_append]
  refine isIdentifier_append (isIdentifier_append hoperation fun c hc => ?_)
    (isIdentifierPart_of_mem hwhat)
  simp [isIdentifierPart, alphanum_className hname c hc]

theorem isReadable_service (hoperation : isIdentifier operation.toList = true)
    (hname : ∀ c ∈ name.toList, isNameChar c = true) (payload : Payload) :
    ∀ i ∈ (service operation (moduleNames name) payload).imports, i.IsReadable := by
  intro i hi
  obtain rfl := List.mem_singleton.mp hi
  exact isReadable_beside rfl (by rintro n ⟨⟩) rfl
    (isLinkText_fileStem hoperation hname)

theorem isReadable_validator (hoperation : isIdentifier operation.toList = true)
    (hname : ∀ c ∈ name.toList, isNameChar c = true) (fields : List Field) :
    ∀ i ∈ (validator operation (moduleNames name) fields).imports, i.IsReadable := by
  intro i hi
  simp only [validator, List.mem_cons, List.not_mem_nil, or_false] at hi
  rcases hi with rfl | rfl
  · exact ⟨rfl, rfl, by rintro n ⟨⟩, by rintro p ⟨⟩; decide⟩
  · exact isReadable_beside rfl (by rintro n ⟨⟩) rfl
      (isLinkText_fileStem hoperation hname)

theorem isReadable_controller (hoperation : isIdentifier operation.toList = true)
    (hname : ∀ c ∈ name.toList, isNameChar c = true) (fields : List Field)
    (framework : Framework) :
    ∀ i ∈ (controller operation (moduleNames name) fields framework).imports, i.IsReadable := by
  intro i hi
  simp only [controller, List.mem_cons, List.not_mem_nil, or_false] at hi
  rcases hi with rfl | rfl | rfl
  · cases framework with
    | express => exact ⟨rfl, rfl, by rintro n ⟨⟩, by rintro p ⟨⟩; decide⟩
    | hono => exact ⟨rfl, rfl, by rintro n ⟨⟩, by rintro p ⟨⟩; decide⟩
  · exact isReadable_beside rfl (by rintro n ⟨⟩) rfl
      (isLinkText_fileStem hoperation hname)
  · have hservices : IsLinkText servicesDirectory := rfl
    exact (isReadable_whole (isIdentifier_functionName hoperation hname rfl) hservices
      (isLinkText_fileStem hoperation hname)).1

theorem isReadable_routes {operations : List String}
    (hoperations : ∀ o ∈ operations, isIdentifier o.toList = true)
    (hname : ∀ c ∈ name.toList, isNameChar c = true) (framework : Framework) :
    ∀ i ∈ (routes operations (moduleNames name) framework).imports, i.IsReadable := by
  intro i hi
  simp only [routes, List.mem_cons, List.mem_map] at hi
  rcases hi with rfl | ⟨o, ho, rfl⟩
  · cases framework with
    | express => exact ⟨rfl, rfl, by rintro n ⟨⟩, by rintro p ⟨⟩; decide⟩
    | hono => exact ⟨rfl, rfl, by rintro n ⟨⟩, by rintro p ⟨⟩; decide⟩
  · have hoperation := hoperations o ho
    have hcontrollers : IsLinkText controllersDirectory := rfl
    exact (isReadable_whole (isIdentifier_functionName hoperation hname rfl) hcontrollers
      (isLinkText_fileStem hoperation hname)).2

theorem isReadable_registration {operations : List String}
    (hoperations : ∀ o ∈ operations, isIdentifier o.toList = true)
    (hname : ∀ c ∈ name.toList, isNameChar c = true) (framework : Framework) :
    ∀ g ∈ (routes operations (moduleNames name) framework).registrations, g.IsReadable := by
  intro g hg
  obtain ⟨o, ho, rfl⟩ := List.mem_map.mp hg
  have hoperation := hoperations o ho
  have hroute : isIdentifier (Route.ofOperation o).method.toList = true ∧
      (Route.ofOperation o).path.toList.all isUnquoted = true := by
    rw [Route.ofOperation]
    split
    · exact ⟨rfl, rfl⟩
    · exact ⟨rfl, rfl⟩
    · exact ⟨rfl, rfl⟩
    · exact ⟨rfl, rfl⟩
    · exact ⟨rfl, rfl⟩
    · have hpost : isIdentifier "post".toList = true := rfl
      have hslash : "/".toList.all isUnquoted = true := rfl
      have hown := (IsLinkText.of_parts (isIdentifierPart_of_mem hoperation)).unquoted
      exact ⟨hpost, by rw [String.toList_append, List.all_append, hslash, hown]; rfl⟩
  exact ⟨hroute.1, hroute.2, isIdentifier_functionName hoperation hname rfl⟩

/-! ## Routes that differ -/

/-- The path of an operation of the author's own is none of a known one. -/
private theorem ofOperation_name_ne (crud : Crud)
    (hoperation : isIdentifier operation.toList = true) :
    Route.ofOperation crud.name ≠ ⟨"post", "/" ++ operation⟩ := by
  obtain ⟨c, rest, hchars, hc⟩ := exists_cons_of_isIdentifier hoperation
  have hown : ("/" ++ operation).toList = '/' :: c :: rest := by
    rw [String.toList_append, hchars]
    rfl
  have hknown : (Route.ofOperation crud.name).path.toList = ['/'] ∨
      (Route.ofOperation crud.name).path.toList = ['/', ':', 'i', 'd'] := by
    cases crud with
    | create => exact .inl rfl
    | list => exact .inl rfl
    | get => exact .inr rfl
    | update => exact .inr rfl
    | delete => exact .inr rfl
  intro heq
  rw [heq, hown] at hknown
  rcases hknown with hknown | hknown
  · simp at hknown
  · obtain ⟨hcolon, -⟩ := List.cons.inj (List.cons.inj hknown).2
    exact ne_of_isIdentifierPart hc (by decide) hcolon

/-- Different operations are served on different routes. -/
theorem ofOperation_inj {a b : String} (ha : isIdentifier a.toList = true)
    (hb : isIdentifier b.toList = true) (h : Route.ofOperation a = Route.ofOperation b) :
    a = b := by
  have hown : ∀ {o : String}, Crud.ofName? o = none →
      Route.ofOperation o = ⟨"post", "/" ++ o⟩ := by
    intro o ho
    rw [Route.ofOperation, ho]
  cases hka : Crud.ofName? a with
  | some crud =>
    obtain rfl := Crud.ofName?_eq_some_iff.mp hka
    cases hkb : Crud.ofName? b with
    | some crud' =>
      obtain rfl := Crud.ofName?_eq_some_iff.mp hkb
      -- no two of the known routes are the same
      cases crud <;> cases crud' <;> first
        | rfl
        | exact absurd h (by decide)
    | none => exact absurd (h.trans (hown hkb)) (ofOperation_name_ne crud hb)
  | none =>
    cases hkb : Crud.ofName? b with
    | some crud' =>
      obtain rfl := Crud.ofName?_eq_some_iff.mp hkb
      exact absurd (h.symm.trans (hown hka)) (ofOperation_name_ne crud' ha)
    | none =>
      rw [hown hka, hown hkb, Route.mk.injEq] at h
      have hchars := congrArg String.toList h.2
      rw [String.toList_append, String.toList_append, List.append_cancel_left_eq] at hchars
      exact String.toList_inj.mp hchars

theorem functionName_inj {a b what : String} {names : ModuleNames}
    (h : functionName a names what = functionName b names what) : a = b := by
  have hchars := congrArg String.toList h
  simp only [functionName, String.toList_append, List.append_cancel_right_eq] at hchars
  exact String.toList_inj.mp hchars

end Files

end Stencil.Source
