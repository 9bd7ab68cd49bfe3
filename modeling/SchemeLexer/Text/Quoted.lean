import SchemeLexer.Text.Basic
import SchemeLexer.Text.Hex
import SchemeLexer.Text.Printable
/-!
# Quoted text

The quoted form in which descriptions show text and bytes. The quote is single unless the content
has a single quote and no double one; the quote in use and the backslash are escaped, and so is
everything that is not printable.
-/

namespace SchemeLexer.Text

/-- The quote that encloses a text: single, unless the text has single quotes and no double one. -/
def enclosing (text : List Char) : Char :=
  if '\'' ∈ text ∧ '"' ∉ text then '"' else '\''

/-- The escapes that text and bytes share: the quote in use, the backslash, and the three
characters with a letter of their own. -/
def commonEscape? (quote c : Char) : Option (List Char) :=
  if c = quote || c = '\\' then some ['\\', c]
  else if c = '\n' then some ['\\', 'n']
  else if c = '\r' then some ['\\', 'r']
  else if c = '\t' then some ['\\', 't']
  else none

def numericEscape (c : Char) : List Char :=
  let n := c.toNat
  if n < 0x100 then '\\' :: 'x' :: hex 2 n
  else if n < 0x10000 then '\\' :: 'u' :: hex 4 n
  else '\\' :: 'U' :: hex 8 n

def quotedChar (quote c : Char) : List Char :=
  match commonEscape? quote c with
  | some escape => escape
  | none => if isPrintable c then [c] else numericEscape c

def quotedPoint (quote : Char) : CodePoint → List Char
  | .char c => quotedChar quote c
  | .surrogate unit _ => '\\' :: 'u' :: hex 4 unit

def quoted (s : Text) : String :=
  let quote := enclosing s.shown.toList
  String.ofList (quote :: s.points.flatMap (quotedPoint quote) ++ [quote])

def quotedByte (quote c : Char) : List Char :=
  match commonEscape? quote c with
  | some escape => escape
  | none =>
      if 0x20 ≤ c.toNat && c.toNat < 0x7f then [c] else '\\' :: 'x' :: hex 2 c.toNat

def quotedBytes (bytes : List UInt8) : String :=
  let text := bytes.map fun b => Char.ofNat b.toNat
  let quote := enclosing text
  String.ofList ('b' :: quote :: text.flatMap (quotedByte quote) ++ [quote])

end SchemeLexer.Text
