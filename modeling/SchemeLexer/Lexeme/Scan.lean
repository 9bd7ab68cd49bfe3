import SchemeLexer.Charset
/-!
# Scanning source text into lexemes

One pass over the characters of a source. The scan knows whether it stands outside a string
literal, inside one, or right after a backslash inside one; outside, whitespace ends the lexeme
being read. With `padded` set, a parenthesis or a quotation mark outside a string also splits: an
opening parenthesis ends the lexeme that it closes, so that `#(` stays whole, while a closing
parenthesis and a quotation mark each stand alone.
-/

namespace SchemeLexer

/-- Where a scan stands: outside string literals, inside one, or inside one right after a backslash
that escapes what follows. -/
inductive Mode where
  | outside
  | inString
  | escaped
  deriving DecidableEq, Repr

/-- The mode after one more character. A double quote opens a string, and closes it unless a
backslash escapes it; a backslash means something only inside a string. -/
def Mode.next : Mode → Char → Mode
  | .outside, c => if c = '"' then .inString else .outside
  | .inString, c => if c = '"' then .outside else if c = '\\' then .escaped else .inString
  | .escaped, _ => .inString

/-- What a scan has found so far: the characters of the unfinished lexeme and the finished lexemes,
both with the latest first. -/
structure Scan where
  mode : Mode
  piece : List Char
  finished : List (List Char)
  deriving DecidableEq, Repr

namespace Scan

def start : Scan := ⟨.outside, [], []⟩

/-- The finished lexemes once the unfinished one, if it has any character, is ended. -/
def flushed (s : Scan) : List (List Char) :=
  match s.piece with
  | [] => s.finished
  | c :: cs => (c :: cs).reverse :: s.finished

def step (padded : Bool) (s : Scan) (c : Char) : Scan :=
  -- A closing quote has left the string already; being none of the delimiters below, it still
  -- goes into the lexeme.
  match s.mode.next c with
  | .inString => ⟨.inString, c :: s.piece, s.finished⟩
  | .escaped => ⟨.escaped, c :: s.piece, s.finished⟩
  | .outside =>
      if Charset.isWhitespace c then
        ⟨.outside, [], s.flushed⟩
      else if padded && c = '(' then
        ⟨.outside, [], (c :: s.piece).reverse :: s.finished⟩
      else if padded && (c = ')' || c = '\'') then
        ⟨.outside, [], [c] :: s.flushed⟩
      else
        ⟨.outside, c :: s.piece, s.finished⟩

def extend (padded : Bool) (s : Scan) (text : List Char) : Scan :=
  text.foldl (step padded) s

def lexemes (s : Scan) : List (List Char) :=
  s.flushed.reverse

end Scan

def scan (padded : Bool) (text : List Char) : List (List Char) :=
  (Scan.start.extend padded text).lexemes

end SchemeLexer
