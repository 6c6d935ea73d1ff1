import OpenApiIR.Command.Inspect
import OpenApiIR.Command.Invocation
import OpenApiIR.Console.Basic
import OpenApiIR.File.DataDirectory
import OpenApiIR.IR.Encode
import OpenApiIR.IR.Resolve

/-! Runs. A command is turned into the list of what it shows and the way it ends, and the console
writes that list. Nothing is written before the document is loaded and resolved, but for debug
lines. -/

namespace OpenApiIR

structure Environment where
  world : World
  vars : Variables
  directory : String
  home : String
  system : String
  /-- The time of the run, as names of logs spell it. -/
  time : String
  terminal : Bool
  draw : Drawing

inductive Ending where
  | exit (code : Nat)
  | defect (d : Defect)
  deriving DecidableEq, Repr

structure Script where
  displays : List Display
  ending : Ending

namespace Script

def failed (message : String) (code : Nat) : Script := ⟨[.error message], .exit code⟩

def broken (d : Defect) : Script := ⟨[], .defect d⟩

def after (displays : List Display) (s : Script) : Script := ⟨displays ++ s.displays, s.ending⟩

def tableOr (note : Option String) (t : Table) : Script :=
  match t.rows, note with
  | [], some text => ⟨[.info text], .exit 0⟩
  | _, _ => ⟨[.table t], .exit 0⟩

end Script

namespace Task

def unresolvedExitCode : Nat := 8

/-- The warnings come before the document, and a strict run fails after both. -/
def parseScript (strict : Bool) (ir : IR) : Script :=
  let displays := ir.diagnostics.map (fun d => Display.warning d.text) ++ [.document ir.encode]
  if strict ∧ ir.diagnostics ≠ [] then
    (Script.failed (toString ir.diagnostics.length ++ " entries could not be resolved")
      unresolvedExitCode).after displays
  else ⟨displays, .exit 0⟩

def script (task : Task) (ir : IR) : Script :=
  match task with
  | .parse strict => parseScript strict ir
  | .models => .tableOr (some "No models defined in this document.") (Inspect.models ir)
  | .endpoints => .tableOr none (Inspect.endpoints ir)
  | .diagnostics =>
    .tableOr (some "No diagnostics. Every entry resolved cleanly.") (Inspect.diagnostics ir)
  | .model name => match ir.model? name with
    | none => .failed ("No model named '" ++ name ++ "'") 1
    | some m => .tableOr none (Inspect.properties m)

end Task

namespace Command

def overrides (c : Command) : Settings.Overrides := ⟨c.timeout.map .float, c.mediaType.map .str⟩

def loaderLogger : String := "oasir.parser.loader"

def requestLog (source : String) (s : Settings) : List Display :=
  match Request.ofSource? source s.timeout s.followRedirects with
  | none => []
  | some q => [.log ⟨.debug, loaderLogger, "Fetching " ++ q.url ++ " (timeout=" ++
    q.timeout.text ++ "s)"⟩]

def notObject (kind : String) : String := "OpenAPI document must be an object (got " ++ kind ++ ")"

def scriptWith (c : Command) (w : World) (s : Settings) : Script :=
  match load w s.timeout s.followRedirects c.source with
  | .error (.reported e) => .failed e.message LoadError.exitCode
  | .error (.unforeseen d) => .broken d
  | .ok document => match IR.resolveWithLog document s.mediaType with
    | .error (.notMap kind) => .failed (notObject kind) LoadError.exitCode
    | .error (.limit l log) => (Script.broken (.limit l)).after (log.map .log)
    | .ok (ir, log) => (c.task.script ir).after (log.map .log)

def script (c : Command) (env : Environment) : Script :=
  match Settings.resolve env.world.room env.directory env.world.files env.vars c.overrides with
  | .error (.reported e) => .failed e.message ConfigError.exitCode
  | .error (.unforeseen d) => .broken d
  | .ok s => (c.scriptWith env.world s).after
      (.debug ("Loading " ++ c.source ++ " (media type " ++ s.mediaType ++ ")") ::
        requestLog c.source s)

end Command

structure Outcome where
  exitCode : Nat
  stdout : String
  stderr : String
  files : FileTree
  /-- The log of a run that ended in a defect: its place and its text. -/
  crashLog : Option (Path × String)

namespace Outcome

def misuseExitCode : Nat := 2

def versionText : String := "oasir 0.1.0\n"

def usage : String :=
  "Usage: oasir [OPTIONS] parse SOURCE [--timeout SECONDS] [--media-type TEXT] [--strict]\n" ++
  "       oasir [OPTIONS] inspect models|endpoints|diagnostics SOURCE [--media-type TEXT]\n" ++
  "       oasir [OPTIONS] inspect model SOURCE NAME [--media-type TEXT]\n" ++
  "Options: --version --json --plain --no-color -q|--quiet -v|--verbose -o|--output FILE --help\n"

def ofTranscript (t : Transcript) (code : Nat) (crashLog : Option (Path × String)) : Outcome :=
  ⟨code, t.stdout, t.stderr, t.files, crashLog⟩

end Outcome

namespace Environment

def dataDirectory (env : Environment) : Path :=
  DataDirectory.locate env.system (env.vars.get? "XDG_DATA_HOME") env.home

/-- End a run in a defect: the user is told where the log is. -/
def crash (env : Environment) (c : Console) (t : Transcript) (d : Defect) : Outcome :=
  let log := DataDirectory.crashLog env.dataDirectory env.time
  let (t, _) := c.present t (.error ("Unexpected error. Debug log: " ++ log.text))
  .ofTranscript t 1 (some (log, d.description ++ "\n"))

/-- Show a script. A write that fails is a defect, and ends the run where it stands. -/
def perform (env : Environment) (c : Console) (s : Script) : Outcome :=
  match c.presentAll ⟨"", "", env.world.files⟩ s.displays, s.ending with
  | (t, some x), _ => env.crash c t x
  | (t, none), .defect d => env.crash c t d
  | (t, none), .exit code => .ofTranscript t code none

/-- The console that the flags ask for; of two formats JSON goes first. -/
def console (env : Environment) (f : Flags) : Console :=
  let choice := if f.json then .fixed .json else if f.plain then .fixed .plain else .automatic
  .make env.vars env.terminal env.draw choice f.noColour f.quiet f.verbose f.output

def execute (env : Environment) (invocation : Invocation) : Outcome :=
  let still := fun code stdout stderr => Outcome.mk code stdout stderr env.world.files none
  match invocation with
  | .version => still 0 Outcome.versionText ""
  | .help => still 0 Outcome.usage ""
  | .misuse => still Outcome.misuseExitCode "" Outcome.usage
  | .run flags command => env.perform (env.console flags) (command.script env)

def run (env : Environment) (words : List String) : Outcome := env.execute (.ofWords words)

end Environment

end OpenApiIR
