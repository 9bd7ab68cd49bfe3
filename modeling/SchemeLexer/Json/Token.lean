import SchemeLexer.Json.Reader
import SchemeLexer.Json.Writer
import SchemeLexer.Mapping
import SchemeLexer.Text.Encoding
/-!
# JSON text of tokens

The JSON text of a token is that of its mapping. Reading takes text or bytes, and reports every
failure but that of an unknown kind as a fault of the JSON text.
-/

namespace SchemeLexer

def Token.jsonMembers (t : Token) : List (Text × List Char) :=
  let literal :=
    match t.literal with
    | none => ['n', 'u', 'l', 'l']
    | some s => Json.writtenText s
  [("type", Json.writtenText t.kind.name), ("literal", literal)]

def Token.toJson (layout : Json.Layout) (t : Token) : String :=
  String.ofList (layout.object 0 t.jsonMembers)

def Token.toIndentedJson (indentation : Json.Indentation) (t : Token) : Except Defect String :=
  indentation.layout.map fun layout => t.toJson layout

namespace Json

inductive Source where
  | text (s : Text)
  | bytes (content : List UInt8)
  deriving DecidableEq, Repr

def Source.toValue : Source → Value
  | .text s => .text s
  | .bytes content => .bytes content

/-- The value that a fault about JSON text that cannot be read shows of it: bytes are not shown. -/
def Source.shown : Source → Value
  | .text s => .text s
  | .bytes _ => .null

def unreadable (reason : String) : String :=
  "Cannot parse token JSON: " ++ reason

variable [Budget]

def load : Source → Except String Value
  | .text s =>
      match parse s.points with
      | .ok v => .ok v
      | .error failure => .error (failure.message s.points)
  | .bytes content =>
      match Text.decode content with
      | .error undecodable => .error undecodable.message
      | .ok s =>
          match read .standard s.points with
          | .ok v => .ok v
          | .error failure => .error (failure.message s.points)

def loadToken (source : Source) : Except Fault Token :=
  match load source with
  | .error reason => Fault.raise (.invalidJson (.text (unreadable reason)) source.shown)
  | .ok v =>
      if Mapping.isTokenMapping v then
        match Mapping.toToken v with
        | .error (.invalidMapping message _) => Fault.raise (.invalidJson message source.toValue)
        | outcome => outcome
      else
        let message := "JSON does not encode a token mapping"
        Fault.raise (.invalidJson (.text message) source.toValue)

/-- The token that a value describes as JSON text, which only text and bytes can be. -/
def toToken : Value → Except Fault SchemeLexer.Token
  | .text s => loadToken (.text s)
  | .bytes content => loadToken (.bytes content)
  | v =>
      let reason := "the JSON object must be str, bytes or bytearray, not " ++ v.typeName
      Fault.raise (.invalidJson (.text (unreadable reason)) .null)

def isJson (s : Text) : Bool :=
  (parse s.points).isOk

end Json

end SchemeLexer
