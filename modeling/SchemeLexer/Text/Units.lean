/-!
# Code points and surrogate pairs

A character beyond U+FFFF is written as a pair of units of 16 bits, a high surrogate and a low
one. A surrogate without its partner denotes no character, but it is a code point that a text may
hold.
-/

namespace SchemeLexer

namespace Text

/-- What stands for a surrogate where only characters can stand. -/
def replacement : Char := Char.ofNat 0xfffd

def isHighSurrogate (u : Nat) : Bool := 0xd800 ≤ u && u < 0xdc00

def isLowSurrogate (u : Nat) : Bool := 0xdc00 ≤ u && u < 0xe000

def ofPair (high low : Nat) : Char :=
  Char.ofNat (0x10000 + (high - 0xd800) * 0x400 + (low - 0xdc00))

end Text

inductive CodePoint where
  | char (c : Char)
  | surrogate (unit : Nat) (h : Text.isHighSurrogate unit || Text.isLowSurrogate unit)
  deriving DecidableEq, Repr

namespace CodePoint

def isSurrogate : CodePoint → Bool
  | .char _ => false
  | .surrogate _ _ => true

def shown : CodePoint → Char
  | .char c => c
  | .surrogate _ _ => Text.replacement

end CodePoint

namespace Text

def ofUnit (u : Nat) : CodePoint :=
  if h : isHighSurrogate u || isLowSurrogate u then .surrogate u h else .char (Char.ofNat u)

/-- The code points of a sequence of units, in which every high surrogate joins with a low one
right after it. -/
def ofUnits : List Nat → List CodePoint
  | [] => []
  | [u] => [ofUnit u]
  | u :: v :: rest =>
      if isHighSurrogate u && isLowSurrogate v then .char (ofPair u v) :: ofUnits rest
      else ofUnit u :: ofUnits (v :: rest)

def unitsOf (c : Char) : List Nat :=
  let n := c.toNat
  if n < 0x10000 then [n]
  else [0xd800 + (n - 0x10000) / 0x400, 0xdc00 + (n - 0x10000) % 0x400]

end Text

end SchemeLexer
