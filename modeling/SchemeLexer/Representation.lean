import SchemeLexer.Text.Blank
/-!
# Representations

The three forms in which a token is handed out or taken in, with the names that select them.
-/

namespace SchemeLexer

/-- The form of a token outside the lexer: the token itself, a mapping with the keys `type` and
`literal`, or the JSON text of that mapping. -/
inductive Representation where
  | record
  | mapping
  | jsonText
  deriving DecidableEq, Repr

namespace Representation

def all : List Representation := [.record, .mapping, .jsonText]

def name : Representation → String
  | .record => "record"
  | .mapping => "mapping"
  | .jsonText => "json-text"

def label : Representation → String
  | .record => "RECORD"
  | .mapping => "MAPPING"
  | .jsonText => "JSON_TEXT"

def aliases : List (String × Representation) :=
  [("record", .record), ("token", .record), ("mapping", .mapping), ("hash", .mapping),
    ("dict", .mapping), ("json-text", .jsonText), ("json_text", .jsonText), ("json", .jsonText)]

/-- The representation that a name selects, whatever its case and the blanks around it. -/
def ofName? (s : String) : Option Representation :=
  aliases.lookup (Text.folded s)

theorem mem_all (r : Representation) : r ∈ all := by
  cases r <;> decide

end Representation

end SchemeLexer
