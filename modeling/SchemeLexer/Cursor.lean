import SchemeLexer.Journal
import SchemeLexer.Settings
/-!
# Cursors

A cursor reads a fixed sequence of tokens. It stands between the token read last and the one to be
read next, and hands tokens out in the representation that it was built with. Before anything is
read both positions are zero; after a successful read the next position is the one after the
current. A move that fails leaves the cursor where it was.
-/

namespace SchemeLexer

def tokenizeNoted (padding : Padding) (source : Text) : List Token × Event :=
  let tokens := tokenizeText padding source
  (tokens, .tokenized tokens.length source.length)

/-- A reader of a fixed sequence of tokens, whose number it keeps beside them. -/
structure Cursor where
  tokens : Array Record
  size : Nat
  current : Nat
  next : Nat
  representation : Representation

namespace Cursor

def start (tokens : Array Record) (r : Representation) : Cursor :=
  ⟨tokens, tokens.size, 0, 0, r⟩

/-- A cursor over tokens whose literals are texts or missing. -/
def ofTokens (tokens : List Token) (r : Representation) : Cursor :=
  start (tokens.map Record.ofToken).toArray r

def remaining (c : Cursor) : Nat := c.size - c.next

def encode (c : Cursor) (t : Record) : Except Fault Value :=
  (t.value.encoded c.representation).mapError Fault.defective

def tokenAt (c : Cursor) (position : Nat) : Except Fault Value :=
  match c.tokens[position]? with
  | some t => c.encode t
  | none => .error (.defective .outOfRange)

def toList (c : Cursor) : Except Fault (List Value) := c.tokens.toList.mapM c.encode

/-- The token read last, which before any read is the first one; null if there is no token. -/
def currentToken (c : Cursor) : Except Fault Value :=
  if c.size = 0 then .ok .null else c.tokenAt c.current

def rewind (c : Cursor) : Cursor := { c with current := 0, next := 0 }

def fork (c : Cursor) : Cursor := ⟨c.tokens, c.size, 0, 0, c.representation⟩

def description (c : Cursor) : String :=
  "Lexer(size=" ++ toString c.size ++ ", current_pos=" ++ toString c.current ++ ", next_pos="
    ++ toString c.next ++ ", representation=" ++ Text.quoted c.representation.name ++ ")"

variable [Budget]

/-- Moves past `offset` tokens and the one after them. -/
def advance (c : Cursor) (offset : Int) : Except Fault Cursor :=
  if offset < 0 then Fault.raise (.negativeOffset offset)
  else
    let position := c.next + offset.toNat
    if c.size ≤ position then Fault.raise (.endOfStream (.int position) (.int c.size))
    else .ok { c with current := position, next := position + 1 }

/-- A successful move leaves fewer tokens to be read. -/
theorem remaining_advance {c moved : Cursor} {offset : Int} (h : c.advance offset = .ok moved) :
    moved.remaining < c.remaining := by
  unfold advance at h
  split at h
  · cases h
  · dsimp only at h
    split at h
    · cases h
    · cases h
      simp only [remaining]
      omega

/-- The token that lies `offset` tokens ahead, or null if there are tokens left but not so many. -/
def lookahead (c : Cursor) (offset : Int) : Except Fault Value :=
  if offset < 0 then Fault.raise (.negativeOffset offset)
  -- only the end of all tokens is a fault here, whatever the offset
  else if c.size ≤ c.next then Fault.raise (.endOfStream (.int c.next) (.int c.size))
  else
    let position := c.next + offset.toNat
    if c.size ≤ position then .ok .null else c.tokenAt position

/-! ## Building -/

def orElse (v inSettings : Value) : Value :=
  if v.isNull then inSettings else v

/-- A cursor over the tokens of source text, or over those that the elements of a value describe.
Options that are null are taken from the settings. The representation is looked up first. -/
def build (settings : Settings) (source representation legacyPadding : Value) :
    Except Fault (Cursor × Event) := do
  let r ← Representation.coerce (orElse representation settings.representation)
  match source with
  | .text s =>
      let padding := Padding.ofValue (orElse legacyPadding settings.legacyPadding)
      let (tokens, event) := tokenizeNoted padding s
      return (ofTokens tokens r, event)
  | _ =>
      match source.elements? with
      | some values =>
          let (tokens, form) ← Representation.decodeAll values
          return (start tokens.toArray r, .converted tokens.length form)
      | none => Fault.raise (Representation.notToken source)

/-! ## Operations -/

inductive Operation where
  | next (offset : Int)
  | skip (offset : Int)
  | peek (offset : Int)
  | current
  | rewind
  | list
  | tokens
  | size
  | describe
  deriving DecidableEq, Repr

/-- What an operation answers, and the cursor after it. A read moves the cursor before the token is
encoded. -/
def perform (c : Cursor) : Operation → Except Fault Value × Cursor
  | .next offset =>
      match c.advance offset with
      | .ok moved => (moved.tokenAt moved.current, moved)
      | .error fault => (.error fault, c)
  | .skip offset =>
      match c.advance offset with
      | .ok moved => (.ok .null, moved)
      | .error fault => (.error fault, c)
  | .peek offset => (c.lookahead offset, c)
  | .current => (c.currentToken, c)
  | .rewind => (.ok (.bool true), c.rewind)
  | .list => (c.toList.map Value.list, c)
  | .tokens => (.ok (.list (c.tokens.toList.map Record.value)), c)
  | .size => (.ok (.int c.size), c)
  | .describe => (.ok (.text c.description), c)

def noted (c : Cursor) : Operation → List Event
  | .rewind => [.rewound c.size]
  | _ => []

end Cursor

end SchemeLexer
