import SchemeLexer.Text.Basic
import SchemeLexer.Text.Hex
import SchemeLexer.Value.Defect
/-!
# The look of JSON text

Strings are written in printable ASCII: everything else is escaped, by a letter where there is one
and otherwise by its units in hexadecimal. Arrays and objects are written on one line without
blanks, or with each of their parts on a line of its own.
-/

namespace SchemeLexer.Json

def unitEscape (unit : Nat) : List Char :=
  '\\' :: 'u' :: Text.hex 4 unit

def writtenChar (c : Char) : List Char :=
  if c = '"' || c = '\\' then ['\\', c]
  else if c = '\n' then ['\\', 'n']
  else if c = '\r' then ['\\', 'r']
  else if c = '\t' then ['\\', 't']
  else if c = '\x0c' then ['\\', 'f']
  else if c = '\x08' then ['\\', 'b']
  else if 0x20 ≤ c.toNat && c.toNat < 0x7f then [c]
  else (Text.unitsOf c).flatMap unitEscape

def writtenPoint : CodePoint → List Char
  | .char c => writtenChar c
  | .surrogate unit _ => unitEscape unit

def writtenPoints (points : List CodePoint) : List Char :=
  '"' :: points.flatMap writtenPoint ++ ['"']

def writtenText (s : Text) : List Char := writtenPoints s.points

/-- How the parts of arrays and objects are laid out: on one line without blanks, or each on a line
of its own, after the indentation once for each level. -/
inductive Layout where
  | compact
  | indented (indentation : List Char)
  deriving DecidableEq, Repr

namespace Layout

def ofWidth (n : Int) : Layout :=
  .indented (List.replicate n.toNat ' ')

def colon : Layout → List Char
  | .compact => [':']
  | .indented _ => [':', ' ']

def line : Layout → Nat → List Char
  | .compact, _ => []
  | .indented indentation, level => '\n' :: (List.replicate level indentation).flatten

/-- Written parts between brackets, at a level. Brackets without parts stand together. -/
def enclosed (l : Layout) (level : Nat) (opening closing : Char) (parts : List (List Char)) :
    List Char :=
  match parts with
  | [] => [opening, closing]
  | parts =>
      opening :: [','].intercalate (parts.map fun part => l.line (level + 1) ++ part)
        ++ l.line level ++ [closing]

def array (l : Layout) (level : Nat) (items : List (List Char)) : List Char :=
  l.enclosed level '[' ']' items

def member (l : Layout) (key : Text) (value : List Char) : List Char :=
  writtenText key ++ l.colon ++ value

def object (l : Layout) (level : Nat) (members : List (Text × List Char)) : List Char :=
  l.enclosed level '\x7b' '\x7d' (members.map fun (key, value) => l.member key value)

end Layout

inductive Indentation where
  | none
  | width (n : Int)
  | text (s : List Char)
  deriving DecidableEq, Repr

namespace Indentation

/-- Whether a number can say how often a text is repeated: it has 64 bits, one of them for the
sign. -/
def isCount (n : Int) : Bool := -0x8000000000000000 ≤ n && n < 0x8000000000000000

def layout : Indentation → Except Defect Layout
  | .none => .ok .compact
  | .width n => if isCount n then .ok (.ofWidth n) else .error .uncountable
  | .text s => .ok (.indented s)

end Indentation

end SchemeLexer.Json
