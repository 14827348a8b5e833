import Stencil.Request.Operation
import Stencil.Source.Layout

/-!
# Stencil — type files to start from

The file an author edits by hand: the payload type and the result types of one
operation. It is written once.
-/

namespace Stencil.Source

open Stencil.Naming

/-- `export type name = { … };` with the given lines between the braces. -/
def typeDeclaration (name : String) (members : List String) : List String :=
  ["export type " ++ name ++ " = \x7b"] ++ members.map ("  " ++ ·) ++ ["\x7d;"]

/-- The members of an operation's payload type. -/
def payloadMembers (operation : String) (names : ModuleNames) : List String :=
  match Crud.ofName? operation with
  | some .create => ["// Add your " ++ names.given ++ " creation fields here"]
  | some .get => ["id: string; // " ++ names.className ++ " ID to retrieve"]
  | some .update =>
    ["id: string; // " ++ names.className ++ " ID to update",
      "// Add your updatable " ++ names.given ++ " fields here (make them optional)"]
  | some .delete => ["id: string; // " ++ names.className ++ " ID to delete"]
  | some .list =>
    ["page?: number;", "limit?: number;", "sort_by?: string;",
      "sort_order?: 'asc' | 'desc';", "search?: string;",
      "// Add your " ++ names.given ++ " specific filters here"]
  | none => ["// Add your " ++ operation ++ " request fields here"]

/-- The members that every stored record has. -/
def recordMembers : List String :=
  ["id: string;", "created_at: string;", "updated_at: string;"]

/-- The members of an operation's result type. -/
def resultMembers (operation : String) (names : ModuleNames) : List String :=
  match Crud.ofName? operation with
  | some .list =>
    ["items: \x7b"] ++ recordMembers.map ("  " ++ ·) ++
      ["\x7d[];", "_metadata: \x7b", "  page: number;", "  limit: number;",
        "  total_count: number;", "\x7d;"]
  | some .delete => ["deleted_id: string;"]
  | some _ => recordMembers ++ ["// Add your " ++ names.given ++ " specific fields here"]
  | none => ["// Add your " ++ operation ++ " response fields here"]

/-- An error that an operation answers with: its code and its status. -/
structure ErrorCase where
  code : String
  status : Nat
  deriving DecidableEq, Repr

/-- The errors of an operation. -/
def errorCases (operation : String) : List ErrorCase :=
  let invalid := ⟨"VALIDATION_ERROR", 400⟩
  let absent := ⟨"NOT_FOUND", 404⟩
  let unauthorized := ⟨"UNAUTHORIZED", 401⟩
  let internal := ⟨"INTERNAL_ERROR", 500⟩
  match Crud.ofName? operation with
  | some .create => [invalid, ⟨"DUPLICATE_ENTRY", 409⟩, internal]
  | some .get => [absent, unauthorized, internal]
  | some .update => [invalid, absent, internal]
  | some .delete => [absent, unauthorized, internal]
  | _ => [invalid, internal]

/-- The alternatives of a union type. -/
def union (alternatives : List String) : String :=
  " | ".intercalate alternatives

/-- The members of an operation's error type. -/
def errorMembers (operation : String) : List String :=
  let cases := errorCases operation
  ["code: " ++ union (cases.map fun c => "'" ++ c.code ++ "'") ++ ";", "message: string;",
    "statusCode: " ++ union (cases.map fun c => toString c.status) ++ ";"]

/-- The lines of an operation's type file. -/
def typeStubLines (operation : String) (names : ModuleNames) : List String :=
  typeDeclaration "typePayload" (payloadMembers operation names) ++ [""] ++
    typeDeclaration "typeResultData" (resultMembers operation names) ++ [""] ++
    typeDeclaration "typeResultError" (errorMembers operation) ++ [""] ++
    typeDeclaration "typeResult"
      ["data: null | typeResultData;", "error: null | typeResultError;"]

/-- The text of an operation's type file. -/
def typeStub (operation : String) (names : ModuleNames) : String :=
  String.join ((typeStubLines operation names).map (· ++ "\n"))

end Stencil.Source
