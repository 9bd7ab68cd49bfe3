import SchemeLexer.Charset
/-!
# Numerals

The shape of a number, without its value. A real has a whole part without leading zeros and
perhaps a fraction; a ratio has two reals; a complex numeral has a real and an imaginary part; an
imaginary numeral has a sign, perhaps a magnitude, and the unit. Each shape is read by a reader of
its own that accepts whole lexemes only.
-/

namespace SchemeLexer

inductive Sign where
  | plus
  | minus
  deriving DecidableEq, Repr

/-- An unsigned decimal: the digits before the point and, if there is a point, those after it. -/
structure Decimals where
  whole : List Char
  fraction : Option (List Char)
  deriving DecidableEq, Repr

/-- An unsigned real part: a decimal, or one decimal over another. -/
inductive Magnitude where
  | real (value : Decimals)
  | ratio (numerator denominator : Decimals)
  deriving DecidableEq, Repr

inductive Numeral where
  | real (sign : Option Sign) (value : Decimals)
  | rational (sign : Option Sign) (numerator denominator : Decimals)
  | complex (sign : Option Sign) (re : Magnitude) (imSign : Sign) (im : Magnitude)
  | imaginary (sign : Sign) (magnitude : Option Magnitude)
  deriving DecidableEq, Repr

inductive Numeral.Shape where
  | real
  | rational
  | complex
  | imaginary
  deriving DecidableEq, Repr

/-! ## Reading a part off the front of a text -/

def Sign.read? : List Char → Option (Sign × List Char)
  | '+' :: rest => some (.plus, rest)
  | '-' :: rest => some (.minus, rest)
  | _ => none

def Sign.readOptional (text : List Char) : Option Sign × List Char :=
  match Sign.read? text with
  | some (sign, rest) => (some sign, rest)
  | none => (none, text)

namespace Decimals

/-- Reads a point and the digits after it, if a point with a digit comes next. -/
def readFraction : List Char → Option (List Char) × List Char
  | '.' :: d :: rest =>
      if Charset.isDigit d then
        (some (d :: rest.takeWhile Charset.isDigit), rest.dropWhile Charset.isDigit)
      else
        (none, '.' :: d :: rest)
  | text => (none, text)

/-- Reads the digits of a whole part: a lone zero, or digits that do not begin with zero. -/
def readWhole? : List Char → Option (List Char × List Char)
  | [] => none
  | d :: rest =>
      if d = '0' then some (['0'], rest)
      else if Charset.isDigit d then
        some (d :: rest.takeWhile Charset.isDigit, rest.dropWhile Charset.isDigit)
      else none

def read? (text : List Char) : Option (Decimals × List Char) := do
  let (whole, rest) ← readWhole? text
  let (fraction, rest) := readFraction rest
  return (⟨whole, fraction⟩, rest)

end Decimals

def Magnitude.readRatio? (text : List Char) : Option (Decimals × Decimals × List Char) := do
  let (numerator, rest) ← Decimals.read? text
  match rest with
  | '/' :: rest =>
      let (denominator, rest) ← Decimals.read? rest
      return (numerator, denominator, rest)
  | _ => none

/-- Reads a ratio if there is one, and otherwise a decimal. -/
def Magnitude.read? (text : List Char) : Option (Magnitude × List Char) :=
  match Magnitude.readRatio? text with
  | some (numerator, denominator, rest) => some (.ratio numerator denominator, rest)
  | none => (Decimals.read? text).map fun (value, rest) => (.real value, rest)

/-! ## Reading a whole lexeme -/

namespace Numeral

def readReal? (lexeme : List Char) : Option Numeral := do
  let (sign, rest) := Sign.readOptional lexeme
  let (value, rest) ← Decimals.read? rest
  if rest.isEmpty then return .real sign value else none

def readRational? (lexeme : List Char) : Option Numeral := do
  let (sign, rest) := Sign.readOptional lexeme
  let (numerator, denominator, rest) ← Magnitude.readRatio? rest
  if rest.isEmpty then return .rational sign numerator denominator else none

def readComplex? (lexeme : List Char) : Option Numeral := do
  let (sign, rest) := Sign.readOptional lexeme
  let (re, rest) ← Magnitude.read? rest
  let (imSign, rest) ← Sign.read? rest
  let (im, rest) ← Magnitude.read? rest
  if rest = ['i'] then return .complex sign re imSign im else none

def readImaginary? (lexeme : List Char) : Option Numeral := do
  let (sign, rest) ← Sign.read? lexeme
  if rest = ['i'] then return .imaginary sign none
  let (magnitude, rest) ← Magnitude.read? rest
  if rest = ['i'] then return .imaginary sign (some magnitude) else none

namespace Shape

def all : List Shape := [.real, .rational, .complex, .imaginary]

def name : Shape → String
  | .real => "real"
  | .rational => "rational"
  | .complex => "complex"
  | .imaginary => "imaginary"

def read? : Shape → List Char → Option Numeral
  | .real => readReal?
  | .rational => readRational?
  | .complex => readComplex?
  | .imaginary => readImaginary?

def accepts (s : Shape) (lexeme : List Char) : Bool :=
  (s.read? lexeme).isSome

end Shape

def shapes (lexeme : List Char) : List Shape :=
  Shape.all.filter fun s => s.accepts lexeme

def accepts (lexeme : List Char) : Bool :=
  Shape.all.any fun s => s.accepts lexeme

end Numeral

end SchemeLexer
