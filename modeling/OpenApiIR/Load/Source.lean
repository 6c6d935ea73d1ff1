import OpenApiIR.Load.Decode
import OpenApiIR.Number.Shortest

/-! Where documents come from: the standard input, the network, or a file. -/

namespace OpenApiIR

inductive Source where
  | input
  | url
  | file
  deriving DecidableEq, Repr

def Source.ofText (text : String) : Source :=
  if text = "-" then .input
  else if "http://".toList.isPrefixOf text.toList ∨
    "https://".toList.isPrefixOf text.toList then .url
  else .file

/-- How the network answers a request. What it can fail in beside a request is left open. -/
inductive Reply where
  | answer (status : Int) (headers : List (String × String)) (body : String)
  | failure (reason : String)
  | trouble (what : String)
  deriving DecidableEq, Repr

/-- Why the standard input gives no text: the system says so, or anything else. -/
inductive InputFault where
  | system (reason : String)
  | trouble (what : String)
  deriving DecidableEq, Repr

structure Request where
  url : String
  timeout : Binary64
  followRedirects : Bool
  deriving DecidableEq, Repr

structure World where
  files : FileTree
  input : Except InputFault String
  network : Request → Reply
  room : Nat

namespace Load

/-- The values of a header, whose name may have any case of letters. -/
def header (headers : List (String × String)) (name : String) : String :=
  Text.join ", " ((headers.filter fun h => Text.lower h.1 = name).map (·.2))

/-- The hint in a content type. Letters count in their own case. -/
def hintOfContentType (contentType : String) : FormatHint :=
  let mentions := fun (s : String) => Text.contains s.toList contentType.toList
  if mentions "json" then .json else if mentions "yaml" ∨ mentions "yml" then .yaml else .either

def hintOfSuffix (suffix : String) : FormatHint :=
  if suffix = ".json" then .json else if suffix = ".yaml" ∨ suffix = ".yml" then .yaml else .either

def fromInput (decode : Decoder) (source : String) : Except InputFault String → Loaded
  | .error (.system reason) => refuse source (.inputFailed reason)
  | .error (.trouble what) => .error (.unforeseen (.foreign what))
  | .ok text =>
    if Text.allBlank text then refuse source .emptyInput else decode .either source text

def fromReply (decode : Decoder) (source : String) : Reply → Loaded
  | .failure reason => refuse source (.network reason)
  | .trouble what => .error (.unforeseen (.foreign what))
  | .answer status headers body =>
    if status ≠ 200 then refuse source (.status status)
    else decode (hintOfContentType (header headers "content-type")) source body

/-- The text of a file: UTF-8, with its line ends unified. -/
def fileText (bytes : List UInt8) : Except Text.Utf8Error String :=
  (Text.decodeUtf8 bytes).map fun cs => String.ofList (Text.unifyLineEnds cs)

def fromBytes (decode : Decoder) (source suffix : String) (bytes : List UInt8) : Loaded :=
  match fileText bytes with
  | .error e => refuse source (.unreadable e)
  | .ok text =>
    if Text.allBlank text then refuse source .emptyFile
    else decode (hintOfSuffix suffix) source text

def fromFile (decode : Decoder) (source : String) (files : FileTree) : Loaded :=
  let path := Path.ofText source
  match files.content? path with
  | .error e => .error (.unforeseen (.file e))
  | .ok none => refuse source .notFound
  | .ok (some bytes) => fromBytes decode source path.suffix bytes

end Load

def Request.ofSource? (source : String) (timeout : Binary64) (followRedirects : Bool) :
    Option Request :=
  match Source.ofText source with
  | .url => some ⟨source, timeout, followRedirects⟩
  | _ => none

def loadWith (yaml : Load.YamlReader) (w : World) (timeout : Binary64) (followRedirects : Bool)
    (source : String) : Loaded :=
  let decode := Load.decodeWith yaml w.room
  match Source.ofText source with
  | .input => Load.fromInput decode source w.input
  | .url => Load.fromReply decode source (w.network ⟨source, timeout, followRedirects⟩)
  | .file => Load.fromFile decode source w.files

def load (w : World) (timeout : Binary64) (followRedirects : Bool) (source : String) : Loaded :=
  loadWith (Load.readYaml w.room) w timeout followRedirects source

end OpenApiIR
