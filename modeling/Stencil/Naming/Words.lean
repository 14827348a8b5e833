import Stencil.Text.Case
import Stencil.Text.Lines

/-!
# Stencil — the words of a name

A name is a sequence of words. Words are separated by blanks, hyphens and
underscores, and a capital after a lower case letter or a digit starts a new
word. The words of a name are in lower case, and each casing is one way to put
them together again.
-/

namespace Stencil.Naming

open Stencil.Text

/-- A letter or digit after which a capital starts a new word. -/
def isHumpFoot (c : Char) : Bool :=
  c.isLower || c.isDigit

/-- Sets a space before every capital that starts a new word. -/
def spaceHumps : List Char → List Char
  | [] => []
  | [c] => [c]
  | c :: d :: rest =>
    if isHumpFoot c && d.isUpper then c :: ' ' :: spaceHumps (d :: rest)
    else c :: spaceHumps (d :: rest)

/-- The characters between words. -/
def isSeparator (c : Char) : Bool :=
  c == '-' || c == '_' || isBlank c

/-- The words of a name, in lower case. -/
def words (name : List Char) : List (List Char) :=
  (runs (fun c => !isSeparator c) (spaceHumps (trim name))).map lower

/-- Words joined by a separator. -/
def joinWords (separator : Char) (ws : List (List Char)) : List Char :=
  [separator].intercalate ws

/-- `blog-post` -/
def kebab (name : List Char) : List Char :=
  joinWords '-' (words name)

/-- `blog_post` -/
def snake (name : List Char) : List Char :=
  joinWords '_' (words name)

/-- `BLOG_POST` -/
def constant (name : List Char) : List Char :=
  upper (snake name)

/-- `BlogPost` -/
def pascal (name : List Char) : List Char :=
  (words name).flatMap capitalize

/-- `blogPost` -/
def camel (name : List Char) : List Char :=
  match words name with
  | [] => []
  | w :: ws => w ++ ws.flatMap capitalize

/-- `blog-post` -/
def kebabCase (name : String) : String :=
  String.ofList (kebab name.toList)

/-- `blog_post` -/
def snakeCase (name : String) : String :=
  String.ofList (snake name.toList)

/-- `BLOG_POST` -/
def constantCase (name : String) : String :=
  String.ofList (constant name.toList)

/-- `BlogPost` -/
def pascalCase (name : String) : String :=
  String.ofList (pascal name.toList)

/-- `blogPost` -/
def camelCase (name : String) : String :=
  String.ofList (camel name.toList)

end Stencil.Naming
