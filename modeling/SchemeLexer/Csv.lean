import SchemeLexer.Token
/-!
# CSV rows

A row of fields, each of them in double quotes, with commas between them. A quote inside a field
is written twice, and nothing else is changed.
-/

namespace SchemeLexer.Csv

def doubleQuote : CodePoint := .char '"'

def comma : CodePoint := .char ','

def writtenPoint (p : CodePoint) : List CodePoint :=
  if p = doubleQuote then [doubleQuote, doubleQuote] else [p]

def writtenField (field : List CodePoint) : List CodePoint :=
  doubleQuote :: field.flatMap writtenPoint ++ [doubleQuote]

def writtenRow (fields : List (List CodePoint)) : List CodePoint :=
  [comma].intercalate (fields.map writtenField)

def row (fields : List Text) : Text :=
  .ofPoints (writtenRow (fields.map Text.points))

end SchemeLexer.Csv

namespace SchemeLexer

def Token.toCsv (t : Token) : Text :=
  Csv.row [t.kind.name, t.text]

end SchemeLexer
