import OpenApiIR.Text.CodePoint
import OpenApiIR.Text.Digit
import OpenApiIR.Yaml.Cursor

/-! The texts of scalars: quoted, plain, and in blocks. Line breaks inside a scalar fold to spaces,
but for those that a literal block keeps. -/

namespace OpenApiIR.Yaml

def fail {α : Type} (f : Fault) : Except Error α := .error (.fault f)

/-- A folded line break: the break itself if it is a separator, a space if no empty line follows. -/
def folded (first : Char) (more : List Char) : List Char :=
  if first ≠ '\n' then first :: more else if more.isEmpty then [' '] else more

namespace Quoted

/-- The empty lines inside a quoted scalar, with the blanks around them. A document may not end
here. -/
def breaks : (budget : Nat) → Cursor → Except Error (List Char × Cursor)
  | 0, c => .ok ([], c)
  | budget + 1, c =>
    if c.atDocumentMarker then fail .documentMarker
    else
      let c := (c.span isGap).2
      match c.takeBreak? with
      | none => .ok ([], c)
      | some (b, c) => (breaks budget c).map fun (bs, c) => (b :: bs, c)

def simpleEscape? : Char → Option Char
  | '0' => some '\x00'
  | 'a' => some '\x07'
  | 'b' => some '\x08'
  | 't' | '\t' => some '\t'
  | 'n' => some '\n'
  | 'v' => some '\x0B'
  | 'f' => some '\x0C'
  | 'r' => some '\r'
  | 'e' => some '\x1B'
  | ' ' => some ' '
  | '"' => some '"'
  | '\\' => some '\\'
  | '/' => some '/'
  | 'N' => some '\u0085'
  | '_' => some '\u00A0'
  | 'L' => some '\u2028'
  | 'P' => some '\u2029'
  | _ => none

def escapeWidth? : Char → Option Nat
  | 'x' => some 2
  | 'u' => some 4
  | 'U' => some 8
  | _ => none

def numericEscape (width : Nat) (c : Cursor) : Except Error (Char × Cursor) :=
  match ((List.range width).map c.peek).mapM Text.hexValue? with
  | none => fail .escape
  | some ds =>
    let n := Text.natOfDigits 16 ds
    if 0x80000000 ≤ n then .error (.misfit .wideCodePoint)
    else if 0x110000 ≤ n then .error (.misfit .codePoint)
    else .ok (Text.ofCodePoint n, c.skip width)

def escape (c : Cursor) : Except Error (List Char × Cursor) :=
  match simpleEscape? c.head, escapeWidth? c.head, c.takeBreak? with
  | some x, _, _ => .ok ([x], c.advance)
  | none, some width, _ => (numericEscape width c.advance).map fun (x, c) => ([x], c)
  | none, none, some (_, c) => breaks c.rest.length.succ c
  | none, none, none => fail .escape

def gap (c : Cursor) : Except Error (List Char × Cursor) :=
  let (blanks, c) := c.span isGap
  if c.atEnd then fail .unterminatedQuote
  else match c.takeBreak? with
    | none => .ok (blanks, c)
    | some (b, c) => (breaks c.rest.length.succ c).map fun (bs, c) => (folded b bs, c)

def body (quote : Char) : (budget : Nat) → Cursor → Except Error (List Char × Cursor)
  | 0, _ => fail .unterminatedQuote
  | budget + 1, c =>
    let continueWith := fun (cs : List Char) (c : Cursor) =>
      (body quote budget c).map fun (more, c) => (cs ++ more, c)
    if c.head = quote then
      if quote = '\'' && c.peek 1 = '\'' then continueWith ['\''] (c.skip 2)
        else .ok ([], c.advance)
    else if quote = '"' && c.head = '\\' then do
      let (cs, c) ← escape c.advance
      continueWith cs c
    else if isGapOrEnd c.head then do
      let (cs, c) ← gap c
      continueWith cs c
    else continueWith [c.head] c.advance

end Quoted

namespace Plain

def stops (inFlow : Bool) (ch next : Char) : Bool :=
  isGapOrEnd ch ||
    (ch = ':' && (isGapOrEnd next || (inFlow && ",[]\x7b\x7d".toList.contains next))) ||
    (inFlow && ",?[]\x7b\x7d".toList.contains ch)

def run (inFlow : Bool) : List Char → List Char
  | [] => []
  | ch :: rest => if stops inFlow ch (rest.headD '\x00') then [] else ch :: run inFlow rest

/-- The line breaks and spaces before the next line of a plain scalar, or `none` at a document
marker. -/
def breaks : (budget : Nat) → Cursor → Option (List Char) × Cursor
  | 0, c => (some [], c)
  | budget + 1, c =>
    if c.head = ' ' then breaks budget c.advance
    else match c.takeBreak? with
      | none => (some [], c)
      | some (b, c) =>
        if c.atDocumentMarker then (none, c)
        else
          let (bs, c) := breaks budget c
          (bs.map (b :: ·), c)

/-- What joins two runs of a plain scalar: spaces, or a folded line break; nothing where the scalar
has ended. The flag tells whether a line has ended. -/
def gap (c : Cursor) : List Char × Cursor × Bool :=
  let (spaces, c) := c.span (· = ' ')
  match c.takeBreak? with
  | none => (spaces, c, false)
  | some (b, c) =>
    if c.atDocumentMarker then ([], c, true)
    else match breaks c.rest.length.succ c with
      | (none, c) => ([], c, true)
      | (some bs, c) => (folded b bs, c, true)

/-- The text of a plain scalar whose lines are indented by more than `indent`, the place after it,
and whether a line has ended since its last character. -/
def body (inFlow : Bool) (indent : Int) :
    (budget : Nat) → Cursor → (joint : List Char) → (lineEnded : Bool) → List Char × Cursor × Bool
  | 0, c, _, lineEnded => ([], c, lineEnded)
  | budget + 1, c, joint, lineEnded =>
    if c.head = '#' then ([], c, lineEnded)
    else
      let cs := run inFlow c.rest
      if cs.isEmpty then ([], c, lineEnded)
      else
        let (next, c, ended) := gap (c.skip cs.length)
        if next.isEmpty || c.head = '#' || (!inFlow && c.column ≤ indent) then
          (joint ++ cs, c, ended)
        else
          let (more, c, ended) := body inFlow indent budget c next ended
          (joint ++ cs ++ more, c, ended)

end Plain

namespace Block

/-- What happens to the line breaks at the end: all but one go, all stay, or all go. -/
inductive Chomping where
  | clip
  | keep
  | strip
  deriving DecidableEq, Repr

def chomping? : Char → Option Chomping
  | '+' => some .keep
  | '-' => some .strip
  | _ => none

def takeIndent (c : Cursor) : Except Error (Option Nat × Cursor) :=
  if Text.isDigit c.head then
    if c.head = '0' then fail .blockHeader else .ok (some (Text.digitValue c.head), c.advance)
  else .ok (none, c)

def indicators (c : Cursor) : Except Error (Chomping × Option Nat × Cursor) :=
  match chomping? c.head with
  | some chomping => (takeIndent c.advance).map fun (indent, c) => (chomping, indent, c)
  | none => do
    let (indent, c) ← takeIndent c
    if indent.isNone then return (.clip, none, c)
    else match chomping? c.head with
      | some chomping => return (chomping, indent, c.advance)
      | none => return (.clip, indent, c)

def headerEnd (c : Cursor) : Except Error Cursor :=
  if !isSpaceOrEnd c.head then fail .blockHeader
  else
    let c := c.skipSpaces.skipComment
    if isBreakOrEnd c.head then .ok ((c.takeBreak?.map (·.2)).getD c) else fail .blockHeader

/-- Empty lines before the first line of text, and the deepest indentation among them and it. -/
def leading : (budget : Nat) → Cursor → (deepest : Nat) → List Char × Nat × Cursor
  | 0, c, deepest => ([], deepest, c)
  | budget + 1, c, deepest =>
    if c.head = ' ' then
      let c := c.advance
      leading budget c (max deepest c.column)
    else match c.takeBreak? with
      | none => ([], deepest, c)
      | some (b, c) =>
        let (bs, deepest, c) := leading budget c deepest
        (b :: bs, deepest, c)

def skipIndent (indent : Nat) : (budget : Nat) → Cursor → Cursor
  | 0, c => c
  | budget + 1, c =>
    if c.column < indent ∧ c.head = ' ' then skipIndent indent budget c.advance else c

def emptyLines (indent : Nat) : (budget : Nat) → Cursor → List Char × Cursor
  | 0, c => ([], c)
  | budget + 1, c =>
    let c := skipIndent indent indent c
    match c.takeBreak? with
    | none => ([], c)
    | some (b, c) =>
      let (bs, c) := emptyLines indent budget c
      (b :: bs, c)

/-- The lines of text from the current one on, with the empty lines before it. -/
def lines (fold : Bool) (chomping : Chomping) (indent : Nat) :
    (budget : Nat) → Cursor → (before : List Char) → List Char × Cursor
  | 0, c, _ => ([], c)
  | budget + 1, c, before =>
    let flush := !isGap c.head
    let (line, c) := c.span (!isBreakOrEnd ·)
    let (ending, c) := match c.takeBreak? with
      | some (b, c) => ([b], c)
      | none => ([], c)
    let (after, c) := emptyLines indent c.rest.length.succ c
    if c.column = indent ∧ !c.atEnd then
      let joint := if fold && ending == ['\n'] && flush && !isGap c.head then
        if after.isEmpty then [' '] else [] else ending
      let (more, c) := lines fold chomping indent budget c after
      (before ++ line ++ joint ++ more, c)
    else
      let tail := match chomping with
        | .clip => ending
        | .keep => ending ++ after
        | .strip => []
      (before ++ line ++ tail, c)

/-- A block scalar, from the character after its indicator; `parent` is the indentation around it.
-/
def body (fold : Bool) (parent : Int) (c : Cursor) : Except Error (List Char × Cursor) := do
  let (chomping, increment, c) ← indicators c
  let c ← headerEnd c
  let least := (max (parent + 1) 1).toNat
  let (before, indent, c) := match increment with
    | none =>
      let (bs, deepest, c) := leading c.rest.length.succ c 0
      (bs, max least deepest, c)
    | some n =>
      let indent := least + n - 1
      let (bs, c) := emptyLines indent c.rest.length.succ c
      (bs, indent, c)
  if c.column = indent ∧ !c.atEnd then return lines fold chomping indent c.rest.length.succ c before
  else return (if chomping = .keep then before else [], c)

end Block

end OpenApiIR.Yaml
