import SchemeLexer.Classification
import SchemeLexer.Lexeme.Padding
import SchemeLexer.Text.Basic
/-!
# Tokens

A token is a classified lexeme. Tokens made from source text always have a literal; one that
comes from a mapping or from JSON text may lack it.
-/

namespace SchemeLexer

structure Token where
  kind : Kind
  literal : Option Text
  deriving DecidableEq, Repr

namespace Token

def ofLexeme (lexeme : String) : Token :=
  ⟨classify lexeme, some lexeme⟩

def text (t : Token) : Text :=
  t.literal.getD ""

end Token

/-- Splits and classifies source text: one token for each lexeme, in order. -/
def tokenize (padding : Padding) (source : String) : List Token :=
  (split padding source).map Token.ofLexeme

/-! ## Sources with surrogates -/

/-- Characters with the given code points in the places of replacement characters, one after the
other, and the code points that are left. -/
def Text.restored : List CodePoint → List Char → List CodePoint × List CodePoint
  | found, [] => ([], found)
  | [], text => (text.map .char, [])
  | p :: found, c :: rest =>
      if c = replacement then
        let (points, left) := restored found rest
        (p :: points, left)
      else
        let (points, left) := restored (p :: found) rest
        (.char c :: points, left)

def Token.restoreAll : List CodePoint → List Token → List Token
  | _, [] => []
  | found, t :: rest =>
      let (points, left) := Text.restored found t.text.shown.toList
      ⟨t.kind, some (.ofPoints points)⟩ :: restoreAll left rest

/-- The tokens of a text. A surrogate is neither whitespace nor in any class, just as the
replacement character is; none of these is ever dropped, so the surrogates can be put back. -/
def tokenizeText (padding : Padding) : Text → List Token
  | .plain source => tokenize padding source
  | .wide w =>
      let found := w.points.filter fun p => p.shown = Text.replacement
      Token.restoreAll found (tokenize padding (Text.wide w).shown)

end SchemeLexer
