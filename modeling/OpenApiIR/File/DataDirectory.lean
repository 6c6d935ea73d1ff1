import OpenApiIR.File.Path

/-! Where the program keeps its own files. Systems that follow the desktop base directories use the
user's data directory; on others it is a hidden directory at home. -/

namespace OpenApiIR.DataDirectory

def program : String := "oasir"

def followsBaseDirectories (system : String) : Bool :=
  system = "Linux" ∨ "BSD".toList.isSuffixOf system.toList

/-- The directory on a system, with the user's data directory, if it is set to some text, and the
home directory. -/
def locate (system : String) (dataHome : Option String) (home : String) : Path :=
  let home := Path.ofText home
  if followsBaseDirectories system then
    match dataHome.filter (· ≠ "") with
    | some directory => (Path.ofText directory).child program
    | none => ((home.child ".local").child "share").child program
  else home.child ("." ++ program)

def crashLog (directory : Path) (time : String) : Path :=
  (directory.child "logs").child ("crash-" ++ time ++ ".log")

end OpenApiIR.DataDirectory
