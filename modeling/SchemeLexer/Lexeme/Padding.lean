import SchemeLexer.Lexeme.Scan
/-!
# Padding of delimiters

Parentheses and quotation marks separate lexemes. Either they do so outside string literals only,
or blanks are written around every one of them before the scan, inside string literals as well.
-/

namespace SchemeLexer

/-- Where parentheses and quotation marks are set apart from what surrounds them: outside string
literals only, which keep their text, or everywhere, by writing blanks into literals too. -/
inductive Padding where
  | outsideStrings
  | everywhere
  deriving DecidableEq, Repr

/-- A character with the blanks that set it apart: one after an opening parenthesis, one on each
side of a closing parenthesis or a quotation mark, none around anything else. -/
def spaced (c : Char) : List Char :=
  if c = '(' then [c, ' ']
  else if c = ')' || c = '\'' then [' ', c, ' ']
  else [c]

def padEverywhere (text : List Char) : List Char :=
  text.flatMap spaced

def splitChars : Padding → List Char → List (List Char)
  | .outsideStrings, text => scan true text
  | .everywhere, text => scan false (padEverywhere text)

def split (padding : Padding) (source : String) : List String :=
  (splitChars padding source.toList).map String.ofList

end SchemeLexer
