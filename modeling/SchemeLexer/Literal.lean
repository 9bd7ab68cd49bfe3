/-!
# Boolean, character and string literals
-/

namespace SchemeLexer.Literal

def isBoolean (lexeme : List Char) : Bool :=
  lexeme ∈
    [['#', 'f'], ['#', 'f', 'a', 'l', 's', 'e'], ['#', 't'], ['#', 't', 'r', 'u', 'e']]

/-- The name of a character literal: one character other than a line feed, or the words `space`
and `newline`. -/
def isCharacterName : List Char → Bool
  | [c] => c ≠ '\n'
  | name => name = ['s', 'p', 'a', 'c', 'e'] || name = ['n', 'e', 'w', 'l', 'i', 'n', 'e']

def isCharacter : List Char → Bool
  | '#' :: '\\' :: name => isCharacterName name
  | _ => false

/-- Whether the rest of a string literal is its items and, at the very end, the closing quote. A
backslash and the character after it are one item. -/
def closes : List Char → Bool
  | [] => false
  | '"' :: rest => rest.isEmpty
  | '\\' :: [] => false
  | '\\' :: _ :: rest => closes rest
  | _ :: rest => closes rest

def isString : List Char → Bool
  | '"' :: rest => closes rest
  | _ => false

end SchemeLexer.Literal
