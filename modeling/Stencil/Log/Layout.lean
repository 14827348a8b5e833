import Stencil.Log.Record
import Stencil.Text.Case

/-!
# Stencil — where log records go and how they look

Records go to the console and, if a file is named, to that file too. Each has
a threshold and a layout. The console's layout says more the lower its
threshold; the file's says everything.
-/

namespace Stencil.Log

/-- A piece of a laid out line. -/
inductive Piece where
  | time
  | severity
  | topic
  | lineNumber
  | message
  | words (text : String)
  deriving DecidableEq, Repr

/-- How a record is laid out, and how the time in it is written. -/
structure Layout where
  pieces : List Piece
  timeFormat? : Option String
  deriving DecidableEq, Repr

/-- A piece as it stands in the pattern of a layout. -/
def Piece.pattern : Piece → String
  | .time => "%(asctime)s"
  | .severity => "%(levelname)-5s"
  | .topic => "%(name)s"
  | .lineNumber => "%(lineno)d"
  | .message => "%(message)s"
  | .words text => text

/-- The pattern of a layout. -/
def Layout.pattern (l : Layout) : String :=
  String.join (l.pieces.map Piece.pattern)

/-- When and where a record was made, as written. -/
structure Stamp where
  time : String
  lineNumber : String
  deriving DecidableEq, Repr

/-- A text filled up with spaces to a width. -/
def padded (width : Nat) (text : String) : String :=
  text ++ String.ofList (List.replicate (width - text.length) ' ')

def Piece.write (stamp : Stamp) (r : Record) : Piece → String
  | .time => stamp.time
  | .severity => padded 5 r.severity.name
  | .topic => r.topic.name
  | .lineNumber => stamp.lineNumber
  | .message => r.message
  | .words text => text

/-- A record as a line. -/
def Layout.write (l : Layout) (stamp : Stamp) (r : Record) : String :=
  String.join (l.pieces.map (Piece.write stamp r)) ++ "\n"

/-- What is written of a record when nothing below a threshold is. -/
def Layout.writeFrom (l : Layout) (threshold : Nat) (stamp : Stamp) (r : Record) : String :=
  if threshold ≤ r.severity.number then l.write stamp r else ""

/-- The message alone. -/
def Layout.minimal : Layout :=
  ⟨[.message], none⟩

/-- When, who and what. -/
def Layout.verbose : Layout :=
  ⟨[.time, .words " [", .topic, .words "] ", .message], some "%H:%M:%S"⟩

/-- The pieces of a layout that says everything. -/
def fullPieces : List Piece :=
  [.time, .words " ", .severity, .words " ", .topic, .words ":", .lineNumber, .words " - ",
    .message]

/-- Everything, with the time of day. -/
def Layout.debug : Layout :=
  ⟨fullPieces, some "%H:%M:%S"⟩

/-- Everything, with the date. -/
def Layout.file : Layout :=
  ⟨fullPieces, some "%Y-%m-%d %H:%M:%S"⟩

/-- The named thresholds. -/
def thresholds : List (String × Nat) :=
  [("CRITICAL", 50), ("FATAL", 50), ("ERROR", 40), ("WARNING", 30), ("WARN", 30),
    ("INFO", 20), ("DEBUG", 10), ("NOTSET", 0)]

/-- The threshold when none is named. -/
def defaultThreshold : Nat := 30

/-- The threshold of a name in any case; a name that is none counts as the
default. -/
def thresholdOf (name : String) : Nat :=
  (thresholds.lookup (String.ofList (Text.upper name.toList))).getD defaultThreshold

/-- The layout of a console with a threshold. -/
def consoleLayout (threshold : Nat) : Layout :=
  if threshold ≤ Severity.debug.number then .debug
  else if threshold ≤ Severity.info.number then .verbose
  else .minimal

/-- What the command line says about the console's threshold. -/
structure Flags where
  isDebug : Bool
  isVerbose : Bool
  isQuiet : Bool
  deriving DecidableEq, Repr

/-- What the environment says about logging. -/
structure Surroundings where
  level? : Option String
  file? : Option String
  fileLevel? : Option String
  deriving DecidableEq, Repr

/-- The name of the console's threshold: a flag counts more than the
environment. -/
def levelName (flags : Flags) (around : Surroundings) : String :=
  if flags.isDebug then "DEBUG"
  else if flags.isVerbose then "INFO"
  else if flags.isQuiet then "ERROR"
  else around.level?.getD "WARNING"

/-- A log file and its threshold. -/
structure LogFile where
  name : String
  threshold : Nat
  deriving DecidableEq, Repr

/-- Where records go. -/
structure Setup where
  console : Nat
  file? : Option LogFile
  deriving DecidableEq, Repr

/-- A text that is there and not empty. -/
def nonempty? (text? : Option String) : Option String :=
  text?.filter (· ≠ "")

/-- Where records go when the console's threshold has the given name. A log
file without a threshold of its own takes the console's. -/
def Setup.of (level : String) (around : Surroundings) : Setup :=
  let console := thresholdOf level
  { console
    file? := (nonempty? around.file?).map fun name =>
      ⟨name, ((nonempty? around.fileLevel?).map thresholdOf).getD console⟩ }

/-- The least threshold: no record below it goes anywhere. -/
def Setup.least (s : Setup) : Nat :=
  match s.file? with
  | some file => min s.console file.threshold
  | none => s.console

end Stencil.Log
