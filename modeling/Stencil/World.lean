import Stencil.Disk.Calls
import Stencil.Script
import Stencil.Text.Utf8

/-!
# Stencil — a world to carry scripts out in

A world holds a disk, what has been printed, and where log records go. `run`
carries a script out in it: every step is answered by the disk as it is at
that moment.
-/

namespace Stencil

/-- The surroundings of a script, as a value. -/
structure World where
  disk : Disk
  output : String
  complaints : String
  log? : Option Log.Setup
  /-- Where the log file lies, as long as it is the one that was opened. -/
  logPlace? : Option Disk.Place
  /-- What stands for the time and place of a log record. -/
  stamp : Log.Stamp
  deriving DecidableEq, Repr

namespace World

/-- A world with nothing printed. -/
def ofDisk (disk : Disk) : World :=
  ⟨disk, "", "", none, none, ⟨"", ""⟩⟩

/-- The world after a change to its disk that may have been refused. -/
def change (w : World) : Except Disk.Fault Disk → Except Disk.Fault Unit × World
  | .ok disk => (.ok (), { w with disk })
  | .error fault => (.error fault, w)

/-- The disk with a record in the log file. A file that is no longer where it
was opened takes its records along. -/
def logToFile (w : World) (file : Log.LogFile) (r : Log.Record) : Disk :=
  let text := Log.Layout.file.writeFrom file.threshold w.stamp r
  match w.logPlace? with
  | some place => w.disk.appendAt place (Text.Utf8.encode text.toList)
  | none => w.disk

/-- The world after a log record. -/
def log (w : World) (r : Log.Record) : World :=
  match w.log? with
  | none => w
  | some setup =>
    { w with
      complaints :=
        w.complaints ++ (Log.consoleLayout setup.console).writeFrom setup.console w.stamp r
      disk :=
        match setup.file? with
        | none => w.disk
        | some file => w.logToFile file r }

/-- The world with log records going elsewhere. A log file is opened at once. -/
def setLog (w : World) (setup : Log.Setup) : Except Disk.Fault Unit × World :=
  match setup.file? with
  | none => (.ok (), { w with log? := some setup, logPlace? := none })
  | some file =>
    match w.disk.openForAppending (.ofText file.name) with
    | .error fault =>
      (.error fault, { w with log? := some { setup with file? := none }, logPlace? := none })
    | .ok (place, disk) =>
      (.ok (), { w with disk, log? := some setup, logPlace? := some place })

/-- The world without the log file, if it lay where a path leads. -/
def forget (w : World) (path : Disk.Path) : World :=
  match w.disk.locate .atLink path with
  | .ok place => if w.logPlace? = some place then { w with logPlace? := none } else w
  | .error _ => w

/-- The world after a change to its disk that does away with what a path leads
to, unless it is refused. -/
def replace (w : World) (path : Disk.Path) (result : Except Disk.Fault Disk) :
    Except Disk.Fault Unit × World :=
  match result with
  | .ok disk => (.ok (), { w.forget path with disk })
  | .error fault => (.error fault, w)

/-- The answer to one step, and the world after it. -/
def perform (w : World) : (call : Call) → call.Answer × World
  | .exists? path => (w.disk.exists? path, w)
  | .isFile? path => (w.disk.isFile? path, w)
  | .isDirectory? path => (w.disk.isDirectory? path, w)
  | .read path => (w.disk.read path, w)
  | .mode path => (w.disk.modeAt path, w)
  | .makeDirectory path => w.change (w.disk.makeDirectory path)
  | .makeTemporary path =>
    match w.disk.makeTemporary path with
    | .ok (temporary, disk) => (.ok temporary, { w with disk })
    | .error fault => (.error fault, w)
  | .fill path bytes => w.change (w.disk.fill path bytes)
  | .setMode path mode => w.change (w.disk.setMode path mode)
  | .rename source target => w.replace target (w.disk.rename source target)
  | .remove path => w.replace path (w.disk.remove path)
  | .resolve path => (w.disk.resolve path, w)
  | .workingDirectory => (Disk.pathOf w.disk.here, w)
  | .setLog setup => w.setLog setup
  | .log record => ((), w.log record)
  | .print text => ((), { w with output := w.output ++ text })
  | .complain text => ((), { w with complaints := w.complaints ++ text })

end World

/-- Carries a script out in a world. -/
def Script.run {α : Type} : Script α → World → α × World
  | done a, w => (a, w)
  | ask call next, w => (next (w.perform call).1).run (w.perform call).2

@[simp]
theorem Script.run_done {α : Type} (a : α) (w : World) : (Script.done a).run w = (a, w) :=
  rfl

theorem Script.run_bind {α β : Type} (s : Script α) (f : α → Script β) (w : World) :
    (s.bind f).run w = (f (s.run w).1).run (s.run w).2 := by
  induction s generalizing w with
  | done a => rfl
  | ask call next ih => exact ih _ _

end Stencil
