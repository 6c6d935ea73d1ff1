import OpenApiIR.Text.Utf8
import OpenApiIR.Yaml.Scalar
import OpenApiIR.Yaml.Token

/-! From a YAML text to its tokens. A key that is not announced by a question mark is known only
when its colon is met; until then the place where its token would stand is kept, at most one for
each level of flow brackets. -/

namespace OpenApiIR.Yaml

structure KeyStart where
  flowLevel : Nat
  /-- The number of tokens before the key. -/
  tokens : Nat
  /-- Is the place one where only a key can stand? -/
  required : Bool
  index : Nat
  line : Nat
  column : Nat

structure Lexer where
  cursor : Cursor
  tokens : Array Token
  flowLevel : Nat
  /-- The column of the innermost block collection, and those of the ones around it. -/
  indent : Int
  outer : List Int
  /-- May a key without question mark start here? -/
  keyAllowed : Bool
  keys : List KeyStart

namespace Lexer

def start (text : List Char) : Lexer := ⟨.ofText text, #[], 0, -1, [], true, []⟩

def column (s : Lexer) : Int := s.cursor.column

def push (s : Lexer) (t : Token) : Lexer := { s with tokens := s.tokens.push t }

/-- Skip spaces, comments and line breaks. A new line in a block may start with a key. -/
def skipGap : (budget : Nat) → Lexer → Lexer
  | 0, s => s
  | budget + 1, s =>
    let c := s.cursor.skipSpaces.skipComment
    match c.takeBreak? with
    | none => { s with cursor := c }
    | some (_, c) =>
      skipGap budget { s with cursor := c, keyAllowed := s.keyAllowed || s.flowLevel == 0 }

/-- A key stands on one line, within 1024 characters. -/
def isStale (s : Lexer) (k : KeyStart) : Bool :=
  k.line != s.cursor.line || k.index + 1024 < s.cursor.index

def dropStale (s : Lexer) : Except Error Lexer :=
  if s.keys.any fun k => s.isStale k && k.required then fail .keyWithoutColon
  else .ok { s with keys := s.keys.filter (!s.isStale ·) }

def keyHere? (s : Lexer) : Option KeyStart := s.keys.find? (·.flowLevel == s.flowLevel)

def forgetKey (s : Lexer) : Except Error Lexer :=
  if s.keyHere?.any (·.required) then fail .keyWithoutColon
  else .ok { s with keys := s.keys.filter (·.flowLevel != s.flowLevel) }

def noteKey (s : Lexer) : Except Error Lexer :=
  if s.keyAllowed then do
    let required := s.flowLevel == 0 && s.indent == s.column
    let c := s.cursor
    let s ← s.forgetKey
    return { s with
      keys := ⟨s.flowLevel, s.tokens.size, required, c.index, c.line, c.column⟩ :: s.keys }
  else return s

def unwindTo (column : Int) : List Int → Lexer → Lexer
  | [], s => s
  | around :: outer, s =>
    if column < s.indent then
      unwindTo column outer ({ s with indent := around, outer := outer }.push .blockEnd)
    else s

def unwind (s : Lexer) (column : Int) : Lexer :=
  if s.flowLevel = 0 then unwindTo column s.outer s else s

def openBlock (s : Lexer) (column : Int) (position : Nat) (t : Token) : Lexer :=
  if s.indent < column then
    { s with
      indent := column, outer := s.indent :: s.outer, tokens :=
        s.tokens.insertIdxIfInBounds position t }
  else s

def take (s : Lexer) (n : Nat) (t : Token) : Lexer := { s with cursor := s.cursor.skip n }.push t

def allowKey (s : Lexer) (b : Bool) : Lexer := { s with keyAllowed := b }

def inBlock (s : Lexer) : Bool := s.flowLevel == 0

def streamEnd (s : Lexer) : Except Error Lexer := do
  let s ← (s.unwind (-1)).forgetKey
  return s.push .streamEnd

def documentMarker (s : Lexer) (t : Token) : Except Error Lexer := do
  let s ← (s.unwind (-1)).forgetKey
  return (s.allowKey false).take 3 t

def flowStart (s : Lexer) (t : Token) : Except Error Lexer := do
  let s ← s.noteKey
  return ({ s with flowLevel := s.flowLevel + 1 }.allowKey true).take 1 t

def flowEnd (s : Lexer) (t : Token) : Except Error Lexer := do
  let s ← s.forgetKey
  return ({ s with flowLevel := s.flowLevel - 1 }.allowKey false).take 1 t

def flowEntry (s : Lexer) : Except Error Lexer := do
  let s ← s.forgetKey
  return (s.allowKey true).take 1 .flowEntry

/-- The start of an entry or a key in a block, which may open a collection. -/
def blockItem (s : Lexer) (fault : Fault) (opening : Token) : Except Error Lexer :=
  if !s.inBlock then .ok s
  else if s.keyAllowed then .ok (s.openBlock s.column s.tokens.size opening)
  else fail fault

def blockEntry (s : Lexer) : Except Error Lexer := do
  let s ← (← s.blockItem .misplacedEntry .blockSeqStart).forgetKey
  return (s.allowKey true).take 1 .blockEntry

def key (s : Lexer) : Except Error Lexer := do
  let s ← (← s.blockItem .misplacedKey .blockMapStart).forgetKey
  return (s.allowKey s.inBlock).take 1 .key

def value (s : Lexer) : Except Error Lexer :=
  match s.keyHere? with
  | some k =>
    let s := { s with
      keys := s.keys.filter (·.flowLevel != s.flowLevel)
      tokens := s.tokens.insertIdxIfInBounds k.tokens .key }
    let s := if s.inBlock then s.openBlock k.column k.tokens .blockMapStart else s
    .ok ((s.allowKey false).take 1 .value)
  | none => do
    let s ← (← s.blockItem .misplacedValue .blockMapStart).forgetKey
    return (s.allowKey s.inBlock).take 1 .value

/-! Directives, anchors and tags. -/

def word (c : Cursor) (fault : Fault) : Except Error (String × Cursor) :=
  let (cs, c) := c.span isWordChar
  if cs.isEmpty then fail fault else .ok (String.ofList cs, c)

def anchorName (c : Cursor) : Except Error (String × Cursor) := do
  let (name, c) ← word c .anchorName
  if isGapOrEnd c.head || "?:,]\x7d%@\x60".toList.contains c.head then return (name, c)
  else fail .anchorName

def hexByte? (c : Cursor) : Option UInt8 := do
  let high ← Text.hexValue? (c.peek 1)
  let low ← Text.hexValue? (c.peek 2)
  return UInt8.ofNat (high * 16 + low)

def escapedBytes : (budget : Nat) → Cursor → Except Error (List UInt8 × Cursor)
  | 0, c => .ok ([], c)
  | budget + 1, c =>
    if c.head = '%' then
      match hexByte? c with
      | none => fail .tag
      | some b => (escapedBytes budget (c.skip 3)).map fun (bs, c) => (b :: bs, c)
    else .ok ([], c)

def isUriChar (c : Char) : Bool := c.isAlphanum || "-;/?:@&=+$,_.!~*'()[]".toList.contains c

def uriChars : (budget : Nat) → Cursor → Except Error (List Char × Cursor)
  | 0, c => .ok ([], c)
  | budget + 1, c =>
    let (cs, c) := c.span isUriChar
    if c.head = '%' then do
      let (bytes, c) ← escapedBytes c.rest.length.succ c
      match Text.decodeUtf8 bytes with
      | .error _ => fail .tag
      | .ok escaped =>
        let (more, c) ← uriChars budget c
        return (cs ++ escaped ++ more, c)
    else .ok (cs, c)

/-- The part of a tag after its handle. An escape counts even where it stands for no character. -/
def uri (c : Cursor) : Except Error (String × Cursor) :=
  if isUriChar c.head || c.head = '%' then
    (uriChars c.rest.length.succ c).map fun (cs, c) => (String.ofList cs, c)
  else fail .tag

/-- `!`, `!!` or `!name!`. A lone mark is a handle only before a space. -/
def handle (c : Cursor) : Except Error (String × Cursor) :=
  if c.head ≠ '!' then fail .tag
  else if c.peek 1 = ' ' then .ok ("!", c.advance)
  else
    let (name, after) := c.advance.span isWordChar
    if after.head = '!' then .ok (String.ofList ('!' :: name ++ ['!']), after.advance)
      else fail .tag

def tagToken (c : Cursor) : Except Error (Token × Cursor) := do
  let (t, c) ←
    if c.peek 1 = '<' then do
      let (suffix, c) ← uri (c.skip 2)
      if c.head = '>' then pure (Token.tag none suffix, c.advance) else fail .tag
    else if isGapOrEnd (c.peek 1) then pure (Token.tag none "!", c.advance)
    else if (c.advance.span (!isSpaceOrEnd ·)).1.contains '!' then do
      let (handle, c) ← handle c
      let (suffix, c) ← uri c
      pure (Token.tag (some handle) suffix, c)
    else do
      let (suffix, c) ← uri c.advance
      pure (Token.tag (some "!") suffix, c)
  if isSpaceOrEnd c.head then return (t, c) else fail .tag

def versionNumber (c : Cursor) : Except Error (Nat × Cursor) :=
  let (ds, c) := c.span Text.isDigit
  if ds.isEmpty then fail .directive else .ok (Text.decimalNat ds, c)

def versionDirective (c : Cursor) : Except Error (Directive × Cursor) := do
  let (major, c) ← versionNumber c.skipSpaces
  if c.head ≠ '.' then fail .directive
  else
    let (minor, c) ← versionNumber c.advance
    if isSpaceOrEnd c.head then return (.version major minor, c) else fail .directive

def tagDirective (c : Cursor) : Except Error (Directive × Cursor) := do
  let (handle, c) ← handle c.skipSpaces
  if c.head ≠ ' ' then fail .directive
  else
    let (stem, c) ← uri c.skipSpaces
    if isSpaceOrEnd c.head then return (.tag handle stem, c) else fail .directive

def directiveToken (c : Cursor) : Except Error (Directive × Cursor) := do
  let (name, c) ← word c.advance .directive
  if !isSpaceOrEnd c.head then fail .directive
  else
    let (d, c) ←
      if name = "YAML" then versionDirective c
      else if name = "TAG" then tagDirective c
      else pure (.reserved name, (c.span (!isBreakOrEnd ·)).2)
    let c := c.skipSpaces.skipComment
    if isBreakOrEnd c.head then return (d, (c.takeBreak?.map (·.2)).getD c) else fail .directive

def directive (s : Lexer) : Except Error Lexer := do
  let s ← (s.unwind (-1)).forgetKey
  let (d, c) ← directiveToken s.cursor
  return ({ s with cursor := c }.allowKey false).push (.directive d)

/-- A token that may be a key, read by `read`; no other key may follow on its line. -/
def content (s : Lexer) (read : Cursor → Except Error (Token × Cursor)) : Except Error Lexer := do
  let s ← s.noteKey
  let (t, c) ← read s.cursor
  return ({ s with cursor := c }.allowKey false).push t

def quotedToken (c : Cursor) : Except Error (Token × Cursor) :=
  (Quoted.body c.head c.rest.length.succ c.advance).map fun (cs, c) =>
    (.scalar (String.ofList cs) false, c)

def plain (s : Lexer) : Except Error Lexer := do
  let s ← s.noteKey
  let c := s.cursor
  let (cs, c, lineEnded) := Plain.body (!s.inBlock) s.indent c.rest.length.succ c [] false
  return ({ s with cursor := c }.allowKey lineEnded).push (.scalar (String.ofList cs) true)

def block (s : Lexer) (fold : Bool) : Except Error Lexer := do
  let s ← (s.allowKey true).forgetKey
  let (cs, c) ← Block.body fold s.indent s.cursor.advance
  return { s with cursor := c }.push (.scalar (String.ofList cs) false)

def startsPlain (s : Lexer) : Bool :=
  let ch := s.cursor.head
  !(isGapOrEnd ch || "-?:,[]\x7b\x7d#&*!|>'\"%@\x60".toList.contains ch) ||
    (!isGapOrEnd (s.cursor.peek 1) && (ch = '-' || (s.inBlock && (ch = '?' || ch = ':'))))

/-- The token at the cursor, where no gap stands. -/
def next (s : Lexer) : Except Error Lexer :=
  let c := s.cursor
  let ch := c.head
  let separate := isGapOrEnd (c.peek 1)
  if c.column = 0 ∧ ch = '%' then s.directive
  else if c.column = 0 ∧ c.atMarker '-' then s.documentMarker .documentStart
  else if c.column = 0 ∧ c.atMarker '.' then s.documentMarker .documentEnd
  else if ch = '[' then s.flowStart .flowSeqStart
  else if ch = '\x7b' then s.flowStart .flowMapStart
  else if ch = ']' then s.flowEnd .flowSeqEnd
  else if ch = '\x7d' then s.flowEnd .flowMapEnd
  else if ch = ',' then s.flowEntry
  else if ch = '-' ∧ separate then s.blockEntry
  else if ch = '?' ∧ (!s.inBlock || separate) then s.key
  else if ch = ':' ∧ (!s.inBlock || separate) then s.value
  else if ch = '*' then s.content fun c =>
    (anchorName c.advance).map fun (name, c) => (.alias name, c)
  else if ch = '&' then s.content fun c =>
    (anchorName c.advance).map fun (name, c) => (.anchor name, c)
  else if ch = '!' then s.content tagToken
  else if ch = '|' ∧ s.inBlock then s.block false
  else if ch = '>' ∧ s.inBlock then s.block true
  else if ch = '\'' ∨ ch = '"' then s.content quotedToken
  else if s.startsPlain then s.plain
  else fail .strayCharacter

/-- All tokens from the cursor on, and the error that ends them early. -/
def run : Lexer → (budget : Nat) → Array Token × Option Error
  | s, 0 => (s.tokens, some (.fault .strayCharacter))
  | s, budget + 1 =>
    let s := skipGap s.cursor.rest.length.succ s
    match s.dropStale with
    | .error e => (s.tokens, some e)
    | .ok s =>
      let s := s.unwind s.column
      if s.cursor.atEnd then
        match s.streamEnd with
        | .ok s => (s.tokens, none)
        | .error e => (s.tokens, some e)
      else match s.next with
        | .ok s => run s budget
        | .error e => (s.tokens, some e)

end Lexer

def Token.ofText (text : List Char) : Array Token × Option Error :=
  let s := Lexer.start text
  let s := if s.cursor.head = '\uFEFF' then { s with cursor := s.cursor.advance } else s
  if text.all isReadable then s.run (text.length + 1) else (#[], some (.fault .unprintable))

end OpenApiIR.Yaml
