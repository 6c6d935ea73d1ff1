import OpenApiIR.Console.Table
import OpenApiIR.Diagnostic.Report
import OpenApiIR.Failure
import OpenApiIR.Json.Writer
import OpenApiIR.Settings.Layers

/-! What a run shows, and where it goes. Data go to the standard output, or to a file in its place;
everything else goes to the standard error. What is shown in colours, and every log record, is drawn
by a library, whose work is left open. -/

namespace OpenApiIR

inductive Format where
  | json
  | plain
  | rich
  deriving DecidableEq, Repr

namespace Format

def all : List Format := [json, plain, rich]

def name : Format → String
  | .json => "json"
  | .plain => "plain"
  | .rich => "rich"

end Format

inductive FormatChoice where
  | automatic
  | fixed (f : Format)
  deriving DecidableEq, Repr

def FormatChoice.ofName? (s : String) : Option FormatChoice :=
  if s = "auto" then some .automatic else (Format.all.find? (·.name = s)).map .fixed

inductive Display where
  | document (v : Value)
  | data (text : String)
  | table (t : Table)
  | info (text : String)
  | warning (text : String)
  | error (text : String)
  | debug (text : String)
  | log (record : LogRecord)

/-- What the library draws of a display, with its line ends. -/
abbrev Drawing := Display → String

structure Console where
  format : Format
  hasColours : Bool
  quiet : Bool
  verbose : Bool
  outputFile : Option String
  draw : Drawing

structure Transcript where
  stdout : String
  stderr : String
  files : FileTree

/-- One write of data. A file that is replaced loses what it held. -/
inductive Write where
  | replace (text : String)
  | add (text : String)
  /-- To the standard output, even if there is a file in its place. -/
  | screen (text : String)
  deriving DecidableEq, Repr

def Write.text : Write → String
  | .replace text | .add text | .screen text => text

namespace Console

def wantsColours (vars : Variables) (noColour : Bool) : Bool :=
  !noColour && (vars.get? "NO_COLOR").isNone && vars.get? "TERM" ≠ some "dumb"

/-- The rich format suits a terminal with colours, the plain one everything else. -/
def suitable (colours terminal : Bool) : FormatChoice → Format
  | .fixed f => f
  | .automatic => if terminal && colours then .rich else .plain

/-- A console for a choice of format. An empty name is no output file. -/
def make (vars : Variables) (terminal : Bool) (draw : Drawing) (choice : FormatChoice)
    (noColour quiet verbose : Bool) (outputFile : Option String) : Console :=
  let hasColours := wantsColours vars noColour
  { format := suitable hasColours terminal choice
    hasColours
    quiet
    verbose
    outputFile := outputFile.filter (· ≠ "")
    draw }

/-- The writes that show data. A document replaces what the output file holds; the rest is added. -/
def writes (c : Console) : Display → List Write
  | .document v =>
    if c.format = .rich ∧ c.outputFile = none then [.screen (c.draw (.document v))]
    else [.replace (Json.write v)]
  | .data text => [.add text]
  | .table t => match c.format with
    | .json => [.add (Json.write t.records)]
    | .plain => t.lines.map .add
    | .rich => [.screen (c.draw (.table t))]
  | _ => []

def ended (line : String) : String := line ++ "\n"

def line (c : Console) (d : Display) (plain : String) : String :=
  if c.hasColours then c.draw d else ended plain

/-- What a display writes to the standard error. Warnings and errors are always written, information
unless the console is quiet, and the rest only if it is verbose. -/
def message (c : Console) (d : Display) : String :=
  match d with
  | .info text => if c.quiet then "" else c.line d text
  | .warning text => c.line d ("Warning: " ++ text)
  | .error text => c.line d ("Error: " ++ text)
  | .debug text => if c.verbose then c.line d ("[debug] " ++ text) else ""
  | .log _ => if c.verbose then c.draw d else ""
  | _ => ""

def closed (text : String) : String := if text.toList.getLast? = some '\n' then text else ended text

def content (text : String) : List UInt8 := (closed text).toUTF8.toList

/-- Why a text cannot go to a file: the file cannot be written, or else the text has no bytes. By
then a file that is replaced is empty, and one that is added to is there. -/
def store (t : Transcript) (put : List UInt8 → Except FileError FileTree) (text : String) :
    Transcript × Option Defect :=
  match put (if Text.Encodable text then content text else []) with
  | .error e => (t, some (.file e))
  | .ok files => ({ t with files }, if Text.Encodable text then none else some .unencodable)

/-- A text that has no bytes is not shown at all. -/
def print (t : Transcript) (text : String) : Transcript × Option Defect :=
  if Text.Encodable text then ({ t with stdout := t.stdout ++ text }, none)
  else (t, some .unencodable)

def write (c : Console) (t : Transcript) (w : Write) : Transcript × Option Defect :=
  match w, c.outputFile with
  | .screen text, _ => print t text
  | .replace text, some name => store t (t.files.overwrite name) text
  | .add text, some name => store t (t.files.append name) text
  | .replace text, none | .add text, none => print t (ended text)

def writeAll (c : Console) : Transcript → List Write → Transcript × Option Defect
  | t, [] => (t, none)
  | t, w :: rest => match c.write t w with
    | (t, none) => c.writeAll t rest
    | (t, some x) => (t, some x)

def present (c : Console) (t : Transcript) (d : Display) : Transcript × Option Defect :=
  c.writeAll { t with stderr := t.stderr ++ Text.backslashed (c.message d) } (c.writes d)

def presentAll (c : Console) : Transcript → List Display → Transcript × Option Defect
  | t, [] => (t, none)
  | t, d :: rest => match c.present t d with
    | (t, none) => c.presentAll t rest
    | (t, some x) => (t, some x)

end Console

end OpenApiIR
