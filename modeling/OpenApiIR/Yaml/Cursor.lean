import OpenApiIR.Yaml.Fault

/-! A place in a YAML text, and the characters that matter to its layout. -/

namespace OpenApiIR.Yaml

/-- What follows a place, and the place itself. The text holds no NUL, which stands for its end. -/
structure Cursor where
  rest : List Char
  index : Nat
  line : Nat
  column : Nat
  deriving Repr

def isBreak (c : Char) : Bool := c = '\r' || c = '\n' || c = '\u0085' || c =
    '\u2028' || c = '\u2029'

def isBreakOrEnd (c : Char) : Bool := c = '\x00' || isBreak c

def isGap (c : Char) : Bool := c = ' ' || c = '\t'

def isGapOrEnd (c : Char) : Bool := isGap c || isBreakOrEnd c

/-- A gap that may end a directive or a tag: a space, not a tab. -/
def isSpaceOrEnd (c : Char) : Bool := c = ' ' || isBreakOrEnd c

def isWordChar (c : Char) : Bool := c.isAlphanum || c = '-' || c = '_'

def isReadable (c : Char) : Bool :=
  let n := c.toNat
  c = '\t' || c = '\n' || c = '\r' || (0x20 ≤ n && n ≤ 0x7E) || n == 0x85 ||
    (0xA0 ≤ n && n ≤ 0xFFFD) ||
    0x10000 ≤ n

namespace Cursor

def ofText (cs : List Char) : Cursor := ⟨cs, 0, 0, 0⟩

def peek (c : Cursor) (n : Nat) : Char := c.rest.getD n '\x00'

def head (c : Cursor) : Char := c.peek 0

def atEnd (c : Cursor) : Bool := c.rest.isEmpty

/-- One character on. A byte order mark takes no column, and CR before LF does not end a line. -/
def advance (c : Cursor) : Cursor :=
  match c.rest with
  | [] => c
  | ch :: rest =>
    if isBreak ch && !(ch = '\r' && rest.head? == some '\n') then ⟨rest, c.index + 1, c.line + 1, 0⟩
    else ⟨rest, c.index + 1, c.line, if ch = '\uFEFF' then c.column else c.column + 1⟩

def skip (c : Cursor) : Nat → Cursor
  | 0 => c
  | n + 1 => (c.advance).skip n

def span (c : Cursor) (p : Char → Bool) : List Char × Cursor :=
  let run := c.rest.takeWhile p
  (run, c.skip run.length)

def skipSpaces (c : Cursor) : Cursor := (c.span (· = ' ')).2

def skipComment (c : Cursor) : Cursor := if c.head = '#' then (c.span (!isBreakOrEnd ·)).2 else c

/-- A line break, read as LF unless it is one of the two separators. -/
def takeBreak? (c : Cursor) : Option (Char × Cursor) :=
  match c.rest with
  | '\r' :: '\n' :: _ => some ('\n', c.skip 2)
  | ch :: _ =>
    if ch = '\u2028' || ch = '\u2029' then some (ch, c.advance)
    else if isBreak ch then some ('\n', c.advance)
    else none
  | [] => none

/-- `---` or `...`, with nothing right behind. -/
def atMarker (c : Cursor) (ch : Char) : Bool :=
  c.peek 0 = ch && c.peek 1 = ch && c.peek 2 = ch && isGapOrEnd (c.peek 3)

def atDocumentMarker (c : Cursor) : Bool := c.atMarker '-' || c.atMarker '.'

end Cursor

end OpenApiIR.Yaml
