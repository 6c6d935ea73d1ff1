import OpenApiIR.Command.Arguments
import OpenApiIR.Number.Decimal
import OpenApiIR.Text.Blank

/-! What a command line asks for. -/

namespace OpenApiIR

inductive Task where
  | parse (strict : Bool)
  | models
  | model (name : String)
  | endpoints
  | diagnostics
  deriving DecidableEq, Repr

structure Command where
  source : String
  timeout : Option Binary64
  mediaType : Option String
  task : Task
  deriving DecidableEq, Repr

structure Flags where
  json : Bool
  plain : Bool
  noColour : Bool
  quiet : Bool
  verbose : Bool
  output : Option String
  deriving DecidableEq, Repr

inductive Invocation where
  | run (flags : Flags) (command : Command)
  | version
  | help
  /-- A command line that asks for nothing that there is. -/
  | misuse
  deriving DecidableEq, Repr

namespace Invocation

def switch (key : String) : Switch := ⟨key, none, false⟩

def valued (key : String) : Switch := ⟨key, none, true⟩

def helpSwitch : Switch := switch "help"

def flagSwitches : List Switch := [
  switch "version", switch "json", switch "plain", switch "no-color", ⟨"quiet", some 'q', false⟩,
  ⟨"verbose", some 'v', false⟩, ⟨"output", some 'o', true⟩, helpSwitch]

def parseSwitches : List Switch :=
  [valued "timeout", valued "media-type", switch "strict", helpSwitch]

def inspectSwitches : List Switch := [valued "media-type", helpSwitch]

def flags (a : Arguments) : Flags where
  json := a.has "json"
  plain := a.has "plain"
  noColour := a.has "no-color"
  quiet := a.has "quiet"
  verbose := a.has "verbose"
  output := a.value? "output"

/-- Some options are answered at once, and of these the first. -/
def eager? (a : Arguments) : Option Invocation :=
  a.options.findSome? fun (key, _) =>
    if key = "version" then some .version else if key = "help" then some .help else none

/-- A number of seconds: digits of any script, with white space around them. -/
def seconds? (text : String) : Option Binary64 :=
  Binary64.ofGroupedChars? (Text.asciiDigits (Text.trimBy Text.isProseBlank text.toList))

def timeout? (a : Arguments) : Option (Option Binary64) :=
  match a.value? "timeout" with
  | none => some none
  | some text => (seconds? text).map some

def ofParse (flags : Flags) (words : List String) : Invocation :=
  match Arguments.ofWords? parseSwitches true words with
  | none => .misuse
  | some a =>
    if let some answer := eager? a then answer
    else match a.positional, timeout? a with
      | [source], some timeout =>
        .run flags ⟨source, timeout, a.value? "media-type", .parse (a.has "strict")⟩
      | _, _ => .misuse

def inspection? (name : String) (arguments : List String) : Option Task :=
  match name, arguments with
  | "models", [] => some .models
  | "model", [model] => some (.model model)
  | "endpoints", [] => some .endpoints
  | "diagnostics", [] => some .diagnostics
  | _, _ => none

def inspections : List String := ["models", "model", "endpoints", "diagnostics"]

def ofInspection (flags : Flags) (name : String) (words : List String) : Invocation :=
  match Arguments.ofWords? inspectSwitches true words with
  | none => .misuse
  | some a =>
    if let some answer := eager? a then answer
    else match a.positional with
      | [] => .misuse
      | source :: rest => match inspection? name rest with
        | some task => .run flags ⟨source, none, a.value? "media-type", task⟩
        | none => .misuse

/-- Words that name no command may still hold options that are answered at once. -/
def ofUnknown (switches : List Switch) (words : List String) : Invocation :=
  ((Arguments.ofWords? switches false words).bind eager?).getD .misuse

def ofInspect (flags : Flags) (words : List String) : Invocation :=
  match Arguments.ofWords? [helpSwitch] false words with
  | none => .misuse
  | some a =>
    if let some answer := eager? a then answer
    else match a.positional with
      | [] => .misuse
      | name :: rest =>
        if name ∈ inspections then ofInspection flags name rest
        else ofUnknown [helpSwitch] (name :: rest)

def ofWords (words : List String) : Invocation :=
  match Arguments.ofWords? flagSwitches false words with
  | none => .misuse
  | some a =>
    if let some answer := eager? a then answer
    else match a.positional with
      | [] => .misuse
      | name :: rest =>
        if name = "parse" then ofParse (flags a) rest
        else if name = "inspect" then ofInspect (flags a) rest
        else ofUnknown flagSwitches (name :: rest)

end Invocation

end OpenApiIR
