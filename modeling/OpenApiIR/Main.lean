import OpenApiIR.Command.Run

/-! The command line program. It gathers what a run can reach, and leaves behind what the run wrote.
Nothing is fetched from the network, and nothing is drawn in colours. -/

namespace OpenApiIR.Program

/-- What stands at a path. What is there but cannot be read as a file is a directory. -/
def node? (path : String) : IO (Option FileNode) := do
  try
    return some (.file (← IO.FS.readBinFile path).toList)
  catch
    | .noFileOrDirectory .. | .permissionDenied .. => return none
    | _ => return some .directory

def gather (t : FileTree) (name : String) : IO FileTree := do
  let path := Path.ofText name
  let mut place : Path := ⟨path.root, []⟩
  let mut tree := t
  for part in path.parts do
    place := place.step part
    if let some n ← node? place.text then tree := tree.put place n
  return tree

def fileNames : Invocation → List String
  | .run flags command =>
    let source := match Source.ofText command.source with
      | .file => [command.source]
      | _ => []
    ProjectFile.name :: source ++ flags.output.toList
  | _ => []

partial def readAll (stream : IO.FS.Stream) (text : String) : IO String := do
  let line ← stream.getLine
  if line.isEmpty then return text else readAll stream (text ++ line)

def input (invocation : Invocation) : IO (Except InputFault String) := do
  match invocation with
  | .run _ command =>
    if Source.ofText command.source ≠ .input then return .ok ""
    try
      return .ok (← readAll (← IO.getStdin) "")
    catch e => return .error (.system (toString e))
  | _ => return .ok ""

def variableNames : List String :=
  ["NO_COLOR", "TERM", "XDG_DATA_HOME", Settings.timeoutVariable, Settings.mediaTypeVariable]

def vars : IO Variables := do
  let found ← variableNames.mapM fun name => do return (name, ← IO.getEnv name)
  return found.filterMap fun (name, value) => value.map (name, ·)

/-- What is drawn, without colours. -/
def draw : Drawing
  | .document v => Console.ended (Json.write v)
  | .data text | .info text => Console.ended text
  | .table t => String.join (t.lines.map Console.ended)
  | .warning text => Console.ended ("Warning: " ++ text)
  | .error text => Console.ended ("Error: " ++ text)
  | .debug text => Console.ended ("[debug] " ++ text)
  | .log r => String.join ((Text.splitOn '\n' r.message.toList).map fun l =>
      Console.ended (r.level.name ++ " " ++ String.ofList l))

def room : Nat := 900

def environment (invocation : Invocation) : IO Environment := do
  let files ← (fileNames invocation).foldlM gather .empty
  return {
    world := ⟨files, ← input invocation, fun _ => .failure "the network cannot be reached", room⟩
    vars := ← vars
    directory := toString (← IO.currentDir)
    home := (← IO.getEnv "HOME").getD "/"
    system := "Linux"
    time := toString (← IO.monoMsNow)
    terminal := ← (← IO.getStdout).isTty
    draw }

def leaveFiles (before after : FileTree) : IO Unit :=
  for (place, n) in after.nodes do
    if let .file content := n then
      if before.stored? place ≠ some n then IO.FS.writeBinFile place.text ⟨content.toArray⟩

def leaveLog (place : Path) (text : String) : IO Unit := do
  IO.FS.createDirAll place.parent.text
  IO.FS.writeFile place.text text

end OpenApiIR.Program

open OpenApiIR in
def main (words : List String) : IO UInt32 := do
  let invocation := Invocation.ofWords words
  let env ← Program.environment invocation
  let outcome := env.execute invocation
  Program.leaveFiles env.world.files outcome.files
  if let some (place, text) := outcome.crashLog then Program.leaveLog place text
  (← IO.getStdout).putStr outcome.stdout
  (← IO.getStderr).putStr outcome.stderr
  return outcome.exitCode.toUInt32
