import OpenApiIR.Text.LetterCase
import OpenApiIR.Text.Lines

/-! Paths of files: a root, and names from there on. Empty names and single dots say nothing and are
left out; a double dot stays, because the name before it may not be a directory. -/

namespace OpenApiIR

/-- The root is empty for a path that starts at the working directory. -/
structure Path where
  root : String
  parts : List String
  deriving DecidableEq, Repr

namespace Path

def up : String := ".."

def segments (text : String) : List String :=
  (Text.splitOn '/' text.toList).map String.ofList

def ofText (text : String) : Path :=
  let slashes := (text.toList.takeWhile (· = '/')).length
  { root := if slashes = 0 then "" else if slashes = 2 then "//" else "/"
    parts := (segments text).filter fun s => s ≠ "" ∧ s ≠ "." }

def text (p : Path) : String :=
  if p.root = "" ∧ p.parts = [] then "." else p.root ++ Text.join "/" p.parts

def child (p : Path) (name : String) : Path := ⟨p.root, p.parts ++ [name]⟩

def name (p : Path) : String := p.parts.getLast?.getD ""

def parent (p : Path) : Path := ⟨p.root, p.parts.dropLast⟩

/-- Go on from a directory by one name. Above a root there is nothing else; above the working
directory the double dots stay. -/
def step (p : Path) (name : String) : Path :=
  if name ≠ up then p.child name
  else match p.parts.getLast? with
    | none => if p.root = "" then p.child up else p
    | some last => if last = up then p.child up else p.parent

/-- The end of a name from its last dot on, if there is something on both sides of that dot. -/
def suffixOf (name : List Char) : List Char :=
  let tail := (name.reverse.takeWhile (· ≠ '.')).reverse
  if tail.isEmpty ∨ name.length ≤ tail.length + 1 then [] else '.' :: tail

def suffix (p : Path) : String := Text.lower (String.ofList (suffixOf p.name.toList))

end Path

end OpenApiIR
