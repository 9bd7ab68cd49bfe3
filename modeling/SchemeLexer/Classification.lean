import SchemeLexer.Identifier
import SchemeLexer.Kind
import SchemeLexer.Literal
import SchemeLexer.Numeral
/-!
# Classification of lexemes

Six rules are tried in a fixed order, and the first that recognises a lexeme gives its kind; a
lexeme that none recognises is illegal. The order decides for a lone dot, a delimiter as well as
an identifier, and for `+i` and `-i`, numerals as well as identifiers.
-/

namespace SchemeLexer

inductive Rule where
  | delimiter
  | boolean
  | character
  | string
  | number
  | identifier
  deriving DecidableEq, Repr

namespace Rule

def all : List Rule := [.delimiter, .boolean, .character, .string, .number, .identifier]

def name : Rule → String
  | .delimiter => "delimiter"
  | .boolean => "boolean"
  | .character => "character"
  | .string => "string"
  | .number => "number"
  | .identifier => "identifier"

/-- The lexemes of fixed kind, in the order of their characters. A vertical bar would open a
delimited identifier, a form that is not supported, and so is illegal. -/
def delimiters : List (List Char × Kind) :=
  [(['#', '('], .vecLparen), (['\''], .quotation), (['('], .lparen), ([')'], .rparen),
    (['.'], .dot), (['|'], .illegal)]

def kind? : Rule → List Char → Option Kind
  | .delimiter, lexeme => delimiters.lookup lexeme
  | .boolean, lexeme => if Literal.isBoolean lexeme then some .boolean else none
  | .character, lexeme => if Literal.isCharacter lexeme then some .character else none
  | .string, lexeme => if Literal.isString lexeme then some .string else none
  | .number, lexeme => if Numeral.accepts lexeme then some .number else none
  | .identifier, lexeme => if Identifier.accepts lexeme then some .identifier else none

/-- The kind that the first recognising rule of a list gives. -/
def firstKind (rules : List Rule) (lexeme : List Char) : Kind :=
  (rules.findSome? fun r => r.kind? lexeme).getD .illegal

end Rule

def classifyChars (lexeme : List Char) : Kind :=
  Rule.firstKind Rule.all lexeme

def classify (lexeme : String) : Kind :=
  classifyChars lexeme.toList

end SchemeLexer
