import Stencil.Disk.Path
import Stencil.Disk.Fault
import Stencil.Log.Layout

/-!
# Stencil — scripts

Work that touches its surroundings is a script: it is either done, or asks its
surroundings for one thing and goes on with the answer. A script does nothing
by itself. It can be carried out on a world of values, on the machine, or step
by step between the steps of other scripts.
-/

namespace Stencil

open Stencil.Disk

/-- The one thing that a step of a script asks for. -/
inductive Call where
  /-- Whether a path leads to anything, to a file, or to a directory. -/
  | exists? (path : Path)
  | isFile? (path : Path)
  | isDirectory? (path : Path)
  | read (path : Path)
  | mode (path : Path)
  | makeDirectory (path : Path)
  /-- An empty temporary file beside the file at a path. -/
  | makeTemporary (path : Path)
  | fill (path : Path) (bytes : List UInt8)
  | setMode (path : Path) (mode : Nat)
  | rename (source target : Path)
  | remove (path : Path)
  | resolve (path : Path)
  | workingDirectory
  /-- Sets where log records go. -/
  | setLog (setup : Log.Setup)
  | log (record : Log.Record)
  /-- Writes to the standard output. -/
  | print (text : String)
  /-- Writes to the standard error. -/
  | complain (text : String)
  deriving DecidableEq, Repr

/-- What the surroundings answer. -/
@[reducible]
def Call.Answer : Call → Type
  | exists? _ => Except Fault Bool
  | isFile? _ => Except Fault Bool
  | isDirectory? _ => Except Fault Bool
  | read _ => Except Fault (List UInt8)
  | mode _ => Except Fault Nat
  | makeDirectory _ => Except Fault Unit
  | makeTemporary _ => Except Fault Path
  | fill _ _ => Except Fault Unit
  | setMode _ _ => Except Fault Unit
  | rename _ _ => Except Fault Unit
  | remove _ => Except Fault Unit
  | resolve _ => Except Fault Path
  | workingDirectory => Path
  | setLog _ => Except Fault Unit
  | log _ => Unit
  | print _ => Unit
  | complain _ => Unit

/-- Work that ends with a value. -/
inductive Script (α : Type) where
  | done (value : α)
  | ask (call : Call) (next : call.Answer → Script α)

namespace Script

/-- One script after another. -/
def bind {α β : Type} : Script α → (α → Script β) → Script β
  | done a, f => f a
  | ask call next, f => ask call fun answer => (next answer).bind f

instance : Monad Script where
  pure := done
  bind := bind

/-- A single step. -/
def step (call : Call) : Script call.Answer :=
  ask call done

theorem bind_done {α : Type} (s : Script α) : s.bind done = s := by
  induction s with
  | done a => rfl
  | ask call next ih => simp only [bind]; congr; funext answer; exact ih answer

theorem bind_bind {α β γ : Type} (s : Script α) (f : α → Script β) (g : β → Script γ) :
    (s.bind f).bind g = s.bind fun a => (f a).bind g := by
  induction s with
  | done a => rfl
  | ask call next ih => simp only [bind]; congr; funext answer; exact ih answer

instance : LawfulMonad Script :=
  LawfulMonad.mk' Script (fun s => bind_done s) (fun _ _ => rfl)
    (fun s f g => bind_bind s f g)

end Script

end Stencil
