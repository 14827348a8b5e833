import Stencil.Disk.Path
import Stencil.Text.Quoted

/-!
# Stencil — what the disk refuses

A request to the disk that fails says why and names the path it was given. A
path with the null character is no path at all, and a chain of links that
comes back to itself leads nowhere.
-/

namespace Stencil.Disk

/-- Why the disk refuses. -/
inductive Errno where
  | noEntry
  | notAllowed
  | busy
  | alreadyThere
  | notDirectory
  | isDirectory
  | nameTooLong
  | linkLoop
  deriving DecidableEq, Repr

def Errno.number : Errno → Nat
  | .noEntry => 2
  | .notAllowed => 13
  | .busy => 16
  | .alreadyThere => 17
  | .notDirectory => 20
  | .isDirectory => 21
  | .nameTooLong => 36
  | .linkLoop => 40

def Errno.text : Errno → String
  | .noEntry => "No such file or directory"
  | .notAllowed => "Permission denied"
  | .busy => "Device or resource busy"
  | .alreadyThere => "File exists"
  | .notDirectory => "Not a directory"
  | .isDirectory => "Is a directory"
  | .nameTooLong => "File name too long"
  | .linkLoop => "Too many levels of symbolic links"

/-- Every reason. -/
def Errno.all : List Errno :=
  [.noEntry, .notAllowed, .busy, .alreadyThere, .notDirectory, .isDirectory, .nameTooLong,
    .linkLoop]

/-- The reason with a number. -/
def Errno.ofNumber? (n : Nat) : Option Errno :=
  all.find? (·.number = n)

/-- The kind of failure, as named in reports. -/
def Errno.kindName : Errno → String
  | .noEntry => "FileNotFoundError"
  | .notAllowed => "PermissionError"
  | .alreadyThere => "FileExistsError"
  | .notDirectory => "NotADirectoryError"
  | .isDirectory => "IsADirectoryError"
  | _ => "OSError"

/-- A request that failed. -/
inductive Fault where
  | refused (code : Errno) (path : String)
  /-- A request about two paths. -/
  | refusedPair (code : Errno) (first second : String)
  /-- The null character in a path. -/
  | nul
  | loop (path : String)
  deriving DecidableEq, Repr

def Fault.message : Fault → String
  | .refused code path =>
    "[Errno " ++ toString code.number ++ "] " ++ code.text ++ ": " ++ Text.quoted path
  | .refusedPair code first second =>
    "[Errno " ++ toString code.number ++ "] " ++ code.text ++ ": " ++ Text.quoted first ++
      " -> " ++ Text.quoted second
  | .nul => "embedded null byte"
  | .loop path => "Symlink loop from " ++ Text.quoted path

/-- The kind of failure, as named in reports. -/
def Fault.kindName : Fault → String
  | .refused code _ => code.kindName
  | .refusedPair code _ _ => code.kindName
  | .nul => "ValueError"
  | .loop _ => "RuntimeError"

/-- Whether the disk itself refused, rather than the path being none. -/
def Fault.isRefusal : Fault → Bool
  | .refused _ _ => true
  | .refusedPair _ _ _ => true
  | _ => false

end Stencil.Disk
