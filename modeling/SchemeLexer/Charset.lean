/-!
# Character sets

The classes of characters that the lexical grammar of Scheme names. All of them lie in ASCII, so
a set is given by its membership test and listed by filtering the first 128 characters.
-/

namespace SchemeLexer

inductive Charset where
  | letters
  | digits
  | specialInitial
  | initial
  | explicitSign
  | specialSubsequent
  | subsequent
  | signSubsequent
  | dotSubsequent
  | whitespace
  deriving DecidableEq, Repr

namespace Charset

def isLetter (c : Char) : Bool :=
  ('a' ≤ c && c ≤ 'z') || ('A' ≤ c && c ≤ 'Z')

def isDigit (c : Char) : Bool :=
  '0' ≤ c && c ≤ '9'

def isSpecialInitial (c : Char) : Bool :=
  c ∈ ['!', '$', '%', '&', '*', '/', ':', '<', '=', '>', '?', '^', '_', '~']

def isInitial (c : Char) : Bool :=
  isLetter c || isSpecialInitial c

def isExplicitSign (c : Char) : Bool :=
  c = '+' || c = '-'

/-- A mark that may follow the first character of an identifier without being able to begin an
ordinary one. -/
def isSpecialSubsequent (c : Char) : Bool :=
  isExplicitSign c || c = '.' || c = '@'

def isSubsequent (c : Char) : Bool :=
  isInitial c || isDigit c || isSpecialSubsequent c

def isSignSubsequent (c : Char) : Bool :=
  isInitial c || isExplicitSign c || c = '@'

def isDotSubsequent (c : Char) : Bool :=
  isSignSubsequent c || c = '.'

/-- A character that separates lexemes: space, tab, line feed, carriage return, form feed or
vertical tab. -/
def isWhitespace (c : Char) : Bool :=
  c ∈ [' ', '\t', '\n', '\r', '\x0c', '\x0b']

def contains : Charset → Char → Bool
  | .letters => isLetter
  | .digits => isDigit
  | .specialInitial => isSpecialInitial
  | .initial => isInitial
  | .explicitSign => isExplicitSign
  | .specialSubsequent => isSpecialSubsequent
  | .subsequent => isSubsequent
  | .signSubsequent => isSignSubsequent
  | .dotSubsequent => isDotSubsequent
  | .whitespace => isWhitespace

def members (s : Charset) : List Char :=
  ((List.range 128).map Char.ofNat).filter s.contains

end Charset

end SchemeLexer
