import OpenApiIR.File.Path

/-! Files and directories. A directory is listed, or something lies below it. Paths are walked name
by name, so a double dot needs a directory before it, and what is written needs a directory around
it. -/

namespace OpenApiIR

inductive FileNode where
  | directory
  | file (content : List UInt8)
  deriving DecidableEq, Repr

inductive FileError where
  | notFound
  | notDirectory
  | isDirectory
  | nameTooLong
  deriving DecidableEq, Repr

def FileError.description : FileError → String
  | .notFound => "no such file or directory"
  | .notDirectory => "not a directory"
  | .isDirectory => "is a directory"
  | .nameTooLong => "file name too long"

structure FileTree where
  nodes : List (Path × FileNode)

namespace FileTree

def empty : FileTree := ⟨[]⟩

def stored? (t : FileTree) (p : Path) : Option FileNode := (t.nodes.find? (·.1 = p)).map (·.2)

def isAbove (t : FileTree) (p : Path) : Bool :=
  t.nodes.any fun e => e.1.root = p.root ∧ p.parts.isPrefixOf e.1.parts

/-- What stands at a path without detours. The working directory, a root and all above them are
directories. -/
def node? (t : FileTree) (p : Path) : Option FileNode :=
  match t.stored? p with
  | some n => some n
  | none => if p.parts.all (· = Path.up) ∨ t.isAbove p then some .directory else none

def longestName : Nat := 255

/-- Follow names from a place, each one out of a directory, to a path without detours. -/
def walk (t : FileTree) (place : Path) : List String → Except FileError Path
  | [] => .ok place
  | name :: rest =>
    match t.node? place with
    | none => .error .notFound
    | some (.file _) => .error .notDirectory
    | some .directory =>
      if longestName < name.utf8ByteSize then .error .nameTooLong else t.walk (place.step name) rest

def locate (t : FileTree) (p : Path) : Except FileError Path := t.walk ⟨p.root, []⟩ p.parts

def find (t : FileTree) (p : Path) : Except FileError FileNode := do
  match t.node? (← t.locate p) with
  | some n => return n
  | none => .error .notFound

/-- The content of a regular file. Where there is none it is no error, but for a name that cannot
be. -/
def content? (t : FileTree) (p : Path) : Except FileError (Option (List UInt8)) :=
  match t.find p with
  | .ok (.file content) => .ok (some content)
  | .error .nameTooLong => .error .nameTooLong
  | _ => .ok none

def putNode : List (Path × FileNode) → Path → FileNode → List (Path × FileNode)
  | [], p, n => [(p, n)]
  | e :: rest, p, n => if e.1 = p then (p, n) :: rest else e :: putNode rest p n

def put (t : FileTree) (p : Path) (n : FileNode) : FileTree := ⟨putNode t.nodes p n⟩

/-- Where a file under this name is written. A name that can only be a directory's cannot be
written. -/
def writable (t : FileTree) (text : String) : Except FileError Path := do
  let p := Path.ofText text
  let last := (Path.segments text).getLast?.getD ""
  if last = "." ∨ last = Path.up then
    let place ← t.locate p
    if (t.node? place).isNone then .error .notFound
  else
    let directory ← t.locate p.parent
    match t.node? directory with
    | none => .error .notFound
    | some (.file _) => .error .notDirectory
    | some .directory => pure ()
  if last = "" ∨ last = "." ∨ last = Path.up then .error .isDirectory
  let place ← t.locate p
  if t.node? place = some .directory then .error .isDirectory
  return place

def overwrite (t : FileTree) (text : String) (content : List UInt8) :
    Except FileError FileTree := do
  return t.put (← t.writable text) (.file content)

/-- Add content to the end of a file; one that does not exist is empty. -/
def append (t : FileTree) (text : String) (content : List UInt8) : Except FileError FileTree := do
  let place ← t.writable text
  match t.node? place with
  | some (.file before) => return t.put place (.file (before ++ content))
  | _ => return t.put place (.file content)

theorem stored?_putNode (ns : List (Path × FileNode)) (p q : Path) (n : FileNode) :
    ((putNode ns p n).find? (·.1 = q)).map (·.2) =
      if p = q then some n else (ns.find? (·.1 = q)).map (·.2) := by
  induction ns with
  | nil => by_cases h : p = q <;> simp [putNode, h]
  | cons e rest ih =>
    by_cases he : e.1 = p
    · by_cases h : p = q <;> simp_all [putNode]
    · by_cases hq : e.1 = q
      · have h : p ≠ q := fun h => he (hq.trans h.symm)
        rw [putNode, if_neg he]
        simp [hq, h]
      · rw [putNode, if_neg he]
        simpa [hq] using ih

theorem stored?_put (t : FileTree) (p q : Path) (n : FileNode) :
    (t.put p n).stored? q = if p = q then some n else t.stored? q :=
  stored?_putNode t.nodes p q n

end FileTree

end OpenApiIR
