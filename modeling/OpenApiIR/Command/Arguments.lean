/-! The words of a command line, sorted into options and arguments. Long options may carry their
value after an equals sign, short ones may stand together, and two hyphens end the options. -/

namespace OpenApiIR

structure Switch where
  key : String
  short : Option Char
  takesValue : Bool
  deriving DecidableEq, Repr

structure Arguments where
  options : List (String × Option String)
  positional : List String
  deriving DecidableEq, Repr

namespace Arguments

def option (name : String) (value : Option String) (a : Arguments) : Arguments :=
  ⟨(name, value) :: a.options, a.positional⟩

def argument (word : String) (a : Arguments) : Arguments := ⟨a.options, word :: a.positional⟩

def has (a : Arguments) (key : String) : Bool := a.options.any (·.1 = key)

/-- The value of an option; the last one counts. -/
def value? (a : Arguments) (key : String) : Option String :=
  (a.options.reverse.find? (·.1 = key)).bind (·.2)

end Arguments

/-- What the options in one word come to: they are complete, or the last one is pending, without its
value. -/
inductive WordOptions where
  | complete (found : List (String × Option String))
  | pending (found : List (String × Option String)) (key : String)
  deriving DecidableEq, Repr

namespace WordOptions

def before (key : String) : WordOptions → WordOptions
  | .complete found => .complete ((key, none) :: found)
  | .pending found last => .pending ((key, none) :: found) last

/-- A long option. Only one that takes a value may carry one. -/
def long? (switches : List Switch) (word : String) : Option WordOptions := do
  let name := word.toList.takeWhile (· ≠ '=')
  let s ← switches.find? fun s => "--" ++ s.key = String.ofList name
  match word.toList.drop name.length, s.takesValue with
  | [], true => return .pending [] s.key
  | [], false => return .complete [(s.key, none)]
  | _ :: value, true => return .complete [(s.key, some (String.ofList value))]
  | _ :: _, false => none

/-- Short options that stand together. The first that takes a value takes the rest of the word. -/
def short? (switches : List Switch) : List Char → Option WordOptions
  | [] => some (.complete [])
  | c :: rest => do
    let s ← switches.find? (·.short = some c)
    if s.takesValue then
      return if rest.isEmpty then .pending [] s.key
        else .complete [(s.key, some (String.ofList rest))]
    else return (← short? switches rest).before s.key

def ofWord? (switches : List Switch) (word : String) : Option WordOptions :=
  match word.toList with
  | '-' :: '-' :: _ => long? switches word
  | _ :: cluster => short? switches cluster
  | [] => none

end WordOptions

namespace Arguments

def isOption (word : String) : Bool :=
  match word.toList with
  | '-' :: _ :: _ => true
  | _ => false

/-- Sort the words. Options are looked for up to the first argument, or, in a mixed command line, to
the end. An unknown option, or one without its value, spoils the whole. -/
def ofWords? (switches : List Switch) (mixed : Bool) : List String → Option Arguments
  | [] => some ⟨[], []⟩
  | word :: rest =>
    if word = "--" then some ⟨[], rest⟩
    else if isOption word then
      match WordOptions.ofWord? switches word with
      | none => none
      | some (.complete found) =>
        (ofWords? switches mixed rest).map fun a => ⟨found ++ a.options, a.positional⟩
      | some (.pending found key) => match rest with
        | [] => none
        | value :: rest =>
          (ofWords? switches mixed rest).map fun a =>
            ⟨found ++ (key, some value) :: a.options, a.positional⟩
    else if mixed then (ofWords? switches mixed rest).map (argument word)
    else some ⟨[], word :: rest⟩

end Arguments

end OpenApiIR
