import SchemeLexer.Text.Basic
/-!
# Failures of reading JSON text

What is wrong with a text that is not read. A syntax failure is known by the text that was left
unread where it arose, from which its line, column and index follow.
-/

namespace SchemeLexer.Json

inductive Mistake where
  | byteOrderMark
  | expectingValue
  | expectingKey
  | expectingColon
  | expectingComma
  | extraData
  | controlCharacter
  | unterminatedString
  | invalidEscape
  | invalidUnicodeEscape
  deriving DecidableEq, Repr

inductive Container where
  | array
  | object
  deriving DecidableEq, Repr

/-- Why a text is not read. It is not well formed at a place, which is known by the text that is
left unread there; or an integer is too long; or a container is nested too deeply. -/
inductive Failure where
  | syntactic (mistake : Mistake) (unread : List CodePoint)
  | hugeInteger (digits limit : Nat)
  | tooDeep (container : Container)
  deriving DecidableEq, Repr

def Mistake.text : Mistake → String
  | .byteOrderMark => "Unexpected UTF-8 BOM (decode using utf-8-sig)"
  | .expectingValue => "Expecting value"
  | .expectingKey => "Expecting property name enclosed in double quotes"
  | .expectingColon => "Expecting ':' delimiter"
  | .expectingComma => "Expecting ',' delimiter"
  | .extraData => "Extra data"
  | .controlCharacter => "Invalid control character at"
  | .unterminatedString => "Unterminated string starting at"
  | .invalidEscape => "Invalid \\escape"
  | .invalidUnicodeEscape => "Invalid \\uXXXX escape"

def Container.name : Container → String
  | .array => "array"
  | .object => "object"

/-- A place in a text, as its line and its column, both from one on, and its index. -/
structure Place where
  line : Nat
  column : Nat
  index : Nat
  deriving DecidableEq, Repr

def Place.after (before : List Char) : Place :=
  ⟨before.count '\n' + 1, (before.reverse.takeWhile (· ≠ '\n')).length + 1, before.length⟩

def Place.text (p : Place) : String :=
  "line " ++ toString p.line ++ " column " ++ toString p.column ++ " (char "
    ++ toString p.index ++ ")"

def Failure.message (source : List CodePoint) : Failure → String
  | .syntactic mistake unread =>
      let before := (source.take (source.length - unread.length)).map CodePoint.shown
      mistake.text ++ ": " ++ (Place.after before).text
  | .hugeInteger digits limit =>
      "Exceeds the limit (" ++ toString limit ++ " digits) for integer string conversion: "
        ++ "value has " ++ toString digits
        ++ " digits; use sys.set_int_max_str_digits() to increase the limit"
  | .tooDeep container =>
      "maximum recursion depth exceeded while decoding a JSON " ++ container.name
        ++ " from a unicode string"

end SchemeLexer.Json
