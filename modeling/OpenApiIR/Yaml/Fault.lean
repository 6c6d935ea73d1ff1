import OpenApiIR.Number.Limit

/-! Why a YAML text cannot be read. A fault breaks the rules of the format. A misfit is a
well-formed scalar whose text names no value of its type, or anything else that no rule of the
format is made for. -/

namespace OpenApiIR.Yaml

inductive Fault where
  | unprintable
  | strayCharacter
  | keyWithoutColon
  | misplacedEntry
  | misplacedKey
  | misplacedValue
  | directive
  | anchorName
  | tag
  | blockHeader
  | unterminatedQuote
  | escape
  | documentMarker
  | unexpectedToken
  | undefinedAlias
  | duplicateAnchor
  | undefinedHandle
  | severalDocuments
  | unknownTag
  | wrongNodeKind
  | unhashableKey
  | mergeTarget
  | base64
  deriving DecidableEq, Repr

def Fault.description : Fault → String
  | .unprintable => "special characters are not allowed"
  | .strayCharacter => "no token starts with this character"
  | .keyWithoutColon => "a key has no ':' after it"
  | .misplacedEntry => "a sequence entry is not allowed here"
  | .misplacedKey => "a key is not allowed here"
  | .misplacedValue => "a value is not allowed here"
  | .directive => "a directive is malformed"
  | .anchorName => "an anchor or alias has no proper name"
  | .tag => "a tag is malformed"
  | .blockHeader => "the header of a block scalar is malformed"
  | .unterminatedQuote => "a quoted scalar has no end"
  | .escape => "an escape is malformed"
  | .documentMarker => "a document marker stands inside a quoted scalar"
  | .unexpectedToken => "a token is out of place"
  | .undefinedAlias => "an alias has no anchor"
  | .duplicateAnchor => "an anchor is defined twice"
  | .undefinedHandle => "a tag handle is not declared"
  | .severalDocuments => "there is more than one document"
  | .unknownTag => "a tag names no known type"
  | .wrongNodeKind => "a node is not of the kind that its tag asks for"
  | .unhashableKey => "a collection cannot be a key"
  | .mergeTarget => "a merge key needs a map or a list of maps"
  | .base64 => "binary data are malformed"

inductive Misfit where
  /-- A date or time of day that does not exist. -/
  | moment
  /-- Text that is no timestamp at all. -/
  | timestamp
  | number
  /-- A number without any digit or sign. -/
  | emptyNumber
  | truthValue
  /-- An escape for a number beyond the last code point. -/
  | codePoint
  /-- An escape for a number of 32 bits. -/
  | wideCodePoint
  /-- A part of a number in base 60 whose power of 60 is beyond the range of floats. -/
  | overflow
  /-- A map where the text of a timestamp is wanted. -/
  | mapping
  | limit (l : Limit)
  deriving DecidableEq, Repr

def Misfit.description : Misfit → String
  | .moment => "a date or time that does not exist"
  | .timestamp => "text that is no timestamp"
  | .number => "text that is no number"
  | .emptyNumber => "a number without digits"
  | .truthValue => "text that is no truth value"
  | .codePoint => "an escape beyond the last code point"
  | .wideCodePoint => "an escape of more than 31 bits"
  | .overflow => "a power of 60 beyond the range of floats"
  | .mapping => "a map where a text is wanted"
  | .limit l => l.message

inductive Error where
  | fault (f : Fault)
  | misfit (m : Misfit)
  deriving DecidableEq, Repr

end OpenApiIR.Yaml
