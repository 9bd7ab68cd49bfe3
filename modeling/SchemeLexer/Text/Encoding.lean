import SchemeLexer.Text.Basic
import SchemeLexer.Text.Hex
/-!
# Text from bytes

Bytes are decoded as UTF-8, UTF-16 or UTF-32. A byte order mark says which; without one the
places of the zero bytes among the first four do. Surrogates that stand alone are let through, in
UTF-8 too.
-/

namespace SchemeLexer.Text

inductive ByteOrder where
  | little
  | big
  deriving DecidableEq, Repr

inductive Encoding where
  | utf8
  | utf16 (order : ByteOrder)
  | utf32 (order : ByteOrder)
  deriving DecidableEq, Repr

def Encoding.name : Encoding → String
  | .utf8 => "utf-8"
  | .utf16 .little => "utf-16-le"
  | .utf16 .big => "utf-16-be"
  | .utf32 .little => "utf-32-le"
  | .utf32 .big => "utf-32-be"

inductive Undecodable.Reason where
  | invalidStart
  | invalidContinuation
  | unexpectedEnd
  | truncated
  | outOfRange
  deriving DecidableEq, Repr

/-- The first bytes that are not text, at least one, and the index of the first of them. -/
structure Undecodable where
  encoding : Encoding
  reason : Undecodable.Reason
  position : Nat
  bytes : List UInt8
  deriving DecidableEq, Repr

def Undecodable.Reason.text : Undecodable.Reason → String
  | .invalidStart => "invalid start byte"
  | .invalidContinuation => "invalid continuation byte"
  | .unexpectedEnd => "unexpected end of data"
  | .truncated => "truncated data"
  | .outOfRange => "code point not in range(0x110000)"

def Undecodable.message (u : Undecodable) : String :=
  let subject :=
    match u.bytes with
    | [b] => "byte 0x" ++ String.ofList (hex 2 b.toNat) ++ " in position " ++ toString u.position
    | bytes =>
        "bytes in position " ++ toString u.position ++ "-"
          ++ toString (u.position + bytes.length - 1)
  "'" ++ u.encoding.name ++ "' codec can't decode " ++ subject ++ ": " ++ u.reason.text

/-! ## UTF-8 -/

/-- A sequence of UTF-8 that is not complete: where it begins, its bytes with the latest first, how
many are still to come, the bounds of the next one, the bits of the character so far, and whether
that would be a surrogate. -/
structure Sequence where
  start : Nat
  bytes : List UInt8
  missing : Nat
  least : Nat
  greatest : Nat
  bits : Nat
  surrogate : Bool
  deriving DecidableEq, Repr

def Sequence.begin? (start : Nat) (byte : UInt8) : Option Sequence :=
  let b := byte.toNat
  if b < 0xc2 then none
  else if b < 0xe0 then some ⟨start, [byte], 1, 0x80, 0xbf, b % 0x20, false⟩
  else if b < 0xf0 then
    some ⟨start, [byte], 2, if b = 0xe0 then 0xa0 else 0x80, if b = 0xed then 0x9f else 0xbf,
      b % 0x10, false⟩
  else if b < 0xf5 then
    some ⟨start, [byte], 3, if b = 0xf0 then 0x90 else 0x80, if b = 0xf4 then 0x8f else 0xbf,
      b % 0x08, false⟩
  else none

/-- The failure of a sequence at a byte that cannot continue it. What would begin a surrogate had
already failed at its second byte. -/
def Sequence.broken (s : Sequence) : Undecodable :=
  ⟨.utf8, .invalidContinuation, s.start,
    if s.surrogate then s.bytes.reverse.take 1 else s.bytes.reverse⟩

def Sequence.unfinished (s : Sequence) : Undecodable :=
  if s.surrogate then s.broken else ⟨.utf8, .unexpectedEnd, s.start, s.bytes.reverse⟩

/-- What decoding has found so far, the latest code point first. -/
structure Utf8State where
  position : Nat
  text : List CodePoint
  pending : Option Sequence
  deriving DecidableEq, Repr

def Utf8State.step (s : Utf8State) (byte : UInt8) : Except Undecodable Utf8State :=
  let b := byte.toNat
  match s.pending with
  | none =>
      if b < 0x80 then .ok ⟨s.position + 1, ofUnit b :: s.text, none⟩
      else
        match Sequence.begin? s.position byte with
        | none => .error ⟨.utf8, .invalidStart, s.position, [byte]⟩
        | some sequence => .ok ⟨s.position + 1, s.text, some sequence⟩
  | some p =>
      let continues := p.least ≤ b && b ≤ p.greatest
      -- surrogates pass, although they are not characters
      let surrogate := p.bytes = [0xed] && 0xa0 ≤ b && b ≤ 0xbf
      if continues || surrogate then
        let bits := p.bits * 0x40 + b % 0x40
        if p.missing = 1 then .ok ⟨s.position + 1, ofUnit bits :: s.text, none⟩
        else
          .ok ⟨s.position + 1, s.text,
            some ⟨p.start, byte :: p.bytes, p.missing - 1, 0x80, 0xbf, bits, surrogate⟩⟩
      else .error p.broken

def decodeUtf8 (bytes : List UInt8) : Except Undecodable (List CodePoint) := do
  let s ← bytes.foldlM Utf8State.step ⟨0, [], none⟩
  match s.pending with
  | none => return s.text.reverse
  | some sequence => throw sequence.unfinished

/-! ## UTF-16 and UTF-32 -/

def ByteOrder.value (order : ByteOrder) (bytes : List UInt8) : Nat :=
  let bigEndian :=
    match order with
    | .little => bytes.reverse
    | .big => bytes
  bigEndian.foldl (fun n b => n * 0x100 + b.toNat) 0

def units16 (order : ByteOrder) : Nat → List UInt8 → Except Undecodable (List Nat)
  | _, [] => .ok []
  | position, [a] => .error ⟨.utf16 order, .truncated, position, [a]⟩
  | position, a :: b :: rest =>
      (units16 order (position + 2) rest).map (order.value [a, b] :: ·)

def points32 (order : ByteOrder) : Nat → List UInt8 → Except Undecodable (List CodePoint)
  | _, [] => .ok []
  | position, a :: b :: c :: d :: rest =>
      let n := order.value [a, b, c, d]
      if n < 0x110000 then (points32 order (position + 4) rest).map (ofUnit n :: ·)
      else .error ⟨.utf32 order, .outOfRange, position, [a, b, c, d]⟩
  | position, bytes => .error ⟨.utf32 order, .truncated, position, bytes⟩

/-! ## Detection -/

/-- The byte order marks, with the encoding that each announces; the longer ones first, since
that of UTF-32 begins with that of UTF-16. -/
def marks : List (List UInt8 × Encoding) :=
  [([0x00, 0x00, 0xfe, 0xff], .utf32 .big), ([0xff, 0xfe, 0x00, 0x00], .utf32 .little),
    ([0xfe, 0xff], .utf16 .big), ([0xff, 0xfe], .utf16 .little), ([0xef, 0xbb, 0xbf], .utf8)]

/-- The encoding that the zeros among the first bytes suggest: text begins with ASCII, whose
units have zeros in all bytes but one. -/
def suggested : List UInt8 → Encoding
  | a :: b :: c :: d :: _ =>
      if a = 0 then if b = 0 then .utf32 .big else .utf16 .big
      else if b = 0 then if c = 0 && d = 0 then .utf32 .little else .utf16 .little
      else .utf8
  | [a, b] => if a = 0 then .utf16 .big else if b = 0 then .utf16 .little else .utf8
  | _ => .utf8

/-- Decodes bytes in an encoding. In UTF-16 and UTF-32 the indices of failures count the `skipped`
bytes of a mark. -/
def Encoding.decode (skipped : Nat) (bytes : List UInt8) :
    Encoding → Except Undecodable (List CodePoint)
  | .utf8 => decodeUtf8 bytes
  | .utf16 order => (units16 order skipped bytes).map ofUnits
  | .utf32 order => points32 order skipped bytes

def decode (bytes : List UInt8) : Except Undecodable Text :=
  let points :=
    match marks.find? fun (mark, _) => mark.isPrefixOf bytes with
    | some (mark, encoding) => encoding.decode mark.length (bytes.drop mark.length)
    | none => (suggested bytes).decode 0 bytes
  points.map ofPoints

end SchemeLexer.Text
