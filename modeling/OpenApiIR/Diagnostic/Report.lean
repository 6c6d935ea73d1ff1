import OpenApiIR.Diagnostic.Basic

/-! Results with a trace. While a document is resolved diagnostics are collected and log records are
written; both are kept beside the result, in the order in which they arise. -/

namespace OpenApiIR

inductive LogLevel where
  | debug
  | warning
  deriving DecidableEq, Repr

def LogLevel.name : LogLevel → String
  | .debug => "DEBUG"
  | .warning => "WARNING"

structure LogRecord where
  level : LogLevel
  logger : String
  message : String
  deriving DecidableEq, Repr

/-- What happens while a document is resolved. A limit that is met halts the resolution, up to the
handler that is next. -/
inductive Event where
  | noted (d : Diagnostic)
  | logged (r : LogRecord)
  | halted (l : Limit)
  deriving DecidableEq, Repr

namespace Event

def diagnostic? : Event → Option Diagnostic
  | .noted d => some d
  | _ => none

def record? : Event → Option LogRecord
  | .logged r => some r
  | _ => none

def limit? : Event → Option Limit
  | .halted l => some l
  | _ => none

end Event

/-- Events in their order. What comes after a halt would have come without it, and does not count.
-/
@[ext] structure Trace where
  events : List Event
  deriving DecidableEq, Repr

namespace Trace

def empty : Trace := ⟨[]⟩

def append (a b : Trace) : Trace := ⟨a.events ++ b.events⟩

instance : Append Trace := ⟨append⟩

def concat (ts : List Trace) : Trace := ⟨ts.flatMap (·.events)⟩

def diagnostics (t : Trace) : List Diagnostic := t.events.filterMap Event.diagnostic?

def log (t : Trace) : List LogRecord := t.events.filterMap Event.record?

def halt? (t : Trace) : Option Limit := t.events.findSome? Event.limit?

def reached (t : Trace) : Trace := ⟨t.events.takeWhile (·.limit?.isNone)⟩

@[simp] theorem events_append (a b : Trace) : (a ++ b).events = a.events ++ b.events := rfl
@[simp] theorem diagnostics_empty : empty.diagnostics = [] := rfl
@[simp] theorem log_empty : empty.log = [] := rfl
@[simp] theorem halt?_empty : empty.halt? = none := rfl

@[simp] theorem diagnostics_append (a b : Trace) :
    (a ++ b).diagnostics = a.diagnostics ++ b.diagnostics := List.filterMap_append

@[simp] theorem log_append (a b : Trace) : (a ++ b).log = a.log ++ b.log := List.filterMap_append

@[simp] theorem halt?_append (a b : Trace) : (a ++ b).halt? = a.halt?.or b.halt? :=
  List.findSome?_append

@[simp] theorem empty_append (t : Trace) : empty ++ t = t := rfl

theorem halt?_concat (ts : List Trace) : (concat ts).halt? = ts.findSome? halt? := by
  induction ts with
  | nil => rfl
  | cons t ts ih =>
    have hcons : concat (t :: ts) = t ++ concat ts := rfl
    rw [hcons, halt?_append, ih, List.findSome?_cons]
    cases t.halt? <;> rfl

theorem diagnostics_concat (ts : List Trace) :
    (concat ts).diagnostics = ts.flatMap diagnostics := List.filterMap_flatMap

end Trace

structure Report (α : Type) where
  value : α
  trace : Trace

namespace Report

def diagnosticLogger : String := "oasir.parser.diagnostics"

def announce (d : Diagnostic) : LogRecord :=
  ⟨.warning, diagnosticLogger, "Skipping " ++ d.kind.name ++ " " ++ d.subject ++ ": " ++ d.message⟩

def silent {α : Type} (a : α) : Report α := ⟨a, .empty⟩

def noting {α : Type} (kind : EntryKind) (subject : String) (problem : Problem) (a : α) :
    Report α :=
  let d : Diagnostic := ⟨kind, subject, problem⟩
  ⟨a, ⟨[.logged (announce d), .noted d]⟩⟩

def halting {α : Type} (l : Limit) (a : α) : Report α := ⟨a, ⟨[.halted l]⟩⟩

/-- What comes after a text that is wanted, with a halt before it if the text meets a limit. -/
def showing {α : Type} (limit? : Option Limit) (r : Report α) : Report α :=
  match limit? with
  | none => r
  | some l => ⟨r.value, ⟨.halted l :: r.trace.events⟩⟩

/-- A reference that cannot be followed is noted. Only its own faults are handled. -/
def refusing {α : Type} (kind : EntryKind) (subject : String) (e : RefError) (a : α) : Report α :=
  match e with
  | .limit l => halting l a
  | e => noting kind subject (.ref e) a

/-- Handle a halt: what was noted before it stays, the result is left out, and the limit is noted.
-/
def guarded {α : Type} (r : Report α) (kind : EntryKind) (subject : String) : Report (List α) :=
  match r.trace.halt? with
  | none => ⟨[r.value], r.trace⟩
  | some l => ⟨[], r.trace.reached ++ (noting kind subject (.limit l) ()).trace⟩

def map {α β : Type} (f : α → β) (r : Report α) : Report β := ⟨f r.value, r.trace⟩

def each {α β : Type} (f : α → Report β) (xs : List α) : Report (List β) :=
  ⟨xs.map fun x => (f x).value, .concat (xs.map fun x => (f x).trace)⟩

def gather {α β : Type} (f : α → Report (List β)) (xs : List α) : Report (List β) :=
  (each f xs).map List.flatten

def andThen {α β : Type} (r : Report α) (f : α → Report β) : Report β :=
  ⟨(f r.value).value, r.trace ++ (f r.value).trace⟩

instance : Monad Report where
  pure := silent
  bind := andThen

variable {α β : Type}

@[simp] theorem value_silent (a : α) : (silent a).value = a := rfl
@[simp] theorem trace_silent (a : α) : (silent a).trace = .empty := rfl
@[simp] theorem value_map (f : α → β) (r : Report α) : (r.map f).value = f r.value := rfl
@[simp] theorem trace_map (f : α → β) (r : Report α) : (r.map f).trace = r.trace := rfl
@[simp] theorem value_pure (a : α) : (pure a : Report α).value = a := rfl
@[simp] theorem trace_pure (a : α) : (pure a : Report α).trace = .empty := rfl
@[simp] theorem value_bind (r : Report α) (f : α → Report β) :
    (r >>= f).value = (f r.value).value := rfl
@[simp] theorem trace_bind (r : Report α) (f : α → Report β) :
    (r >>= f).trace = r.trace ++ (f r.value).trace := rfl

@[simp] theorem value_noting (k : EntryKind) (s : String) (p : Problem) (a : α) :
    (noting k s p a).value = a := rfl
@[simp] theorem diagnostics_noting (k : EntryKind) (s : String) (p : Problem) (a : α) :
    (noting k s p a).trace.diagnostics = [⟨k, s, p⟩] := rfl
@[simp] theorem log_noting (k : EntryKind) (s : String) (p : Problem) (a : α) :
    (noting k s p a).trace.log = [announce ⟨k, s, p⟩] := rfl
@[simp] theorem halt?_noting (k : EntryKind) (s : String) (p : Problem) (a : α) :
    (noting k s p a).trace.halt? = none := rfl

@[simp] theorem value_halting (l : Limit) (a : α) : (halting l a).value = a := rfl
@[simp] theorem diagnostics_halting (l : Limit) (a : α) :
    (halting l a).trace.diagnostics = [] := rfl
@[simp] theorem log_halting (l : Limit) (a : α) : (halting l a).trace.log = [] := rfl
@[simp] theorem halt?_halting (l : Limit) (a : α) : (halting l a).trace.halt? = some l := rfl

@[simp] theorem showing_none (r : Report α) : showing none r = r := rfl

@[simp] theorem value_showing (l? : Option Limit) (r : Report α) :
    (showing l? r).value = r.value := by cases l? <;> rfl

@[simp] theorem diagnostics_showing (l? : Option Limit) (r : Report α) :
    (showing l? r).trace.diagnostics = r.trace.diagnostics := by cases l? <;> rfl

@[simp] theorem log_showing (l? : Option Limit) (r : Report α) :
    (showing l? r).trace.log = r.trace.log := by cases l? <;> rfl

@[simp] theorem halt?_showing (l? : Option Limit) (r : Report α) :
    (showing l? r).trace.halt? = l?.or r.trace.halt? := by cases l? <;> rfl

@[simp] theorem value_refusing (k : EntryKind) (s : String) (e : RefError) (a : α) :
    (refusing k s e a).value = a := by cases e <;> rfl

@[simp] theorem value_each (f : α → Report β) (xs : List α) :
    (each f xs).value = xs.map fun x => (f x).value := rfl

@[simp] theorem value_gather (f : α → Report (List β)) (xs : List α) :
    (gather f xs).value = xs.flatMap fun x => (f x).value := by
  simp [gather, each, List.flatMap]

@[simp] theorem events_each (f : α → Report β) (xs : List α) :
    (each f xs).trace.events = xs.flatMap fun x => (f x).trace.events := by
  simp [each, Trace.concat, List.flatMap_map]

@[simp] theorem diagnostics_each (f : α → Report β) (xs : List α) :
    (each f xs).trace.diagnostics = xs.flatMap fun x => (f x).trace.diagnostics := by
  simp [each, Trace.diagnostics_concat, List.flatMap_map]

@[simp] theorem halt?_each (f : α → Report β) (xs : List α) :
    (each f xs).trace.halt? = xs.findSome? fun x => (f x).trace.halt? := by
  simp [each, Trace.halt?_concat, List.findSome?_map, Function.comp_def]

@[simp] theorem events_gather (f : α → Report (List β)) (xs : List α) :
    (gather f xs).trace.events = xs.flatMap fun x => (f x).trace.events := events_each f xs

@[simp] theorem diagnostics_gather (f : α → Report (List β)) (xs : List α) :
    (gather f xs).trace.diagnostics = xs.flatMap fun x => (f x).trace.diagnostics :=
  diagnostics_each f xs

@[simp] theorem halt?_gather (f : α → Report (List β)) (xs : List α) :
    (gather f xs).trace.halt? = xs.findSome? fun x => (f x).trace.halt? := halt?_each f xs

end Report

end OpenApiIR
