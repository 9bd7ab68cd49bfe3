import SchemeLexer.Charset
import SchemeLexer.Decimal.Binary
/-!
# Reading decimal numbers

The longest number at the front of a text: a sign, a whole part without leading zeros, and perhaps
a fraction and an exponent. Without the last two it is an integer, and otherwise a floating-point
number.
-/

namespace SchemeLexer.Decimal

def value (digits : List Char) : Nat :=
  digits.foldl (fun n d => 10 * n + (d.toNat - '0'.toNat)) 0

/-- A number as it is written. The digits after the point are missing if there is no point, and so
is the exponent of ten, which has a sign and digits. -/
structure Numeral where
  negative : Bool
  whole : List Char
  fraction : Option (List Char)
  exponent : Option (Bool × List Char)
  deriving DecidableEq, Repr

def readDigits? (text : List Char) : Option (List Char × List Char) :=
  match text.takeWhile Charset.isDigit with
  | [] => none
  | d :: ds => some (d :: ds, text.dropWhile Charset.isDigit)

def readMinus : List Char → Bool × List Char
  | '-' :: rest => (true, rest)
  | text => (false, text)

def readSign : List Char → Bool × List Char
  | '-' :: rest => (true, rest)
  | '+' :: rest => (false, rest)
  | text => (false, text)

/-- Reads a whole part: a lone zero, or digits that do not begin with zero. -/
def readWhole? : List Char → Option (List Char × List Char)
  | '0' :: rest => some (['0'], rest)
  | text => readDigits? text

def readFraction (text : List Char) : Option (List Char) × List Char :=
  match text with
  | '.' :: rest =>
      match readDigits? rest with
      | some (digits, rest) => (some digits, rest)
      | none => (none, text)
  | _ => (none, text)

def readExponent (text : List Char) : Option (Bool × List Char) × List Char :=
  match text with
  | c :: rest =>
      if c = 'e' || c = 'E' then
        let (negative, rest) := readSign rest
        match readDigits? rest with
        | some (digits, rest) => (some (negative, digits), rest)
        | none => (none, text)
      else (none, text)
  | [] => (none, text)

def read? (text : List Char) : Option (Numeral × List Char) := do
  let (negative, rest) := readMinus text
  let (whole, rest) ← readWhole? rest
  let (fraction, rest) := readFraction rest
  let (exponent, rest) := readExponent rest
  return (⟨negative, whole, fraction, exponent⟩, rest)

/-! ## What is read is taken off the front -/

theorem readDigits?_shorter {text ds rest : List Char}
    (h : readDigits? text = some (ds, rest)) : rest.length < text.length := by
  unfold readDigits? at h
  split at h
  · cases h
  · next d ds' htake =>
      cases h
      have hsplit := congrArg List.length
        (List.takeWhile_append_dropWhile (p := Charset.isDigit) (l := text))
      rw [List.length_append, htake, List.length_cons] at hsplit
      omega

theorem readFraction_le (text : List Char) :
    (readFraction text).2.length ≤ text.length := by
  unfold readFraction
  split
  · split
    · next h =>
        have := readDigits?_shorter h
        simp only [List.length_cons]
        omega
    · exact Nat.le_refl _
  · exact Nat.le_refl _

theorem readSign_le (text : List Char) :
    (readSign text).2.length ≤ text.length := by
  unfold readSign
  split <;> simp

theorem readExponent_le (text : List Char) :
    (readExponent text).2.length ≤ text.length := by
  unfold readExponent
  split
  · next c rest =>
      split
      · have hsign := readSign_le rest
        dsimp only
        split
        · next h =>
            have := readDigits?_shorter h
            simp only [List.length_cons]
            omega
        · exact Nat.le_refl _
      · exact Nat.le_refl _
  · exact Nat.le_refl _

theorem readMinus_le (text : List Char) :
    (readMinus text).2.length ≤ text.length := by
  unfold readMinus
  split <;> simp

theorem readWhole?_shorter {text ds rest : List Char}
    (h : readWhole? text = some (ds, rest)) : rest.length < text.length := by
  unfold readWhole? at h
  split at h
  · cases h
    simp
  · exact readDigits?_shorter h

theorem read?_shorter {text rest : List Char} {n : Numeral}
    (h : read? text = some (n, rest)) : rest.length < text.length := by
  simp only [read?, Option.bind_eq_bind, Option.pure_def, Option.bind_eq_some_iff] at h
  obtain ⟨⟨whole, afterWhole⟩, hwhole, h⟩ := h
  cases h
  dsimp only
  have hminus := readMinus_le text
  have hshorter := readWhole?_shorter hwhole
  have hfraction := readFraction_le afterWhole
  have hexponent := readExponent_le (readFraction afterWhole).2
  omega

/-! ## Values -/

namespace Numeral

def isInteger (n : Numeral) : Bool :=
  n.fraction.isNone && n.exponent.isNone

def toInt (n : Numeral) : Int :=
  if n.negative then -(value n.whole : Int) else value n.whole

def power (n : Numeral) : Int :=
  match n.exponent with
  | none => 0
  | some (negative, digits) => if negative then -(value digits : Int) else value digits

def toBinary (n : Numeral) : Binary64 :=
  let fraction := n.fraction.getD []
  .ofDecimal n.negative (value (n.whole ++ fraction)) (n.power - fraction.length)

end Numeral

/-- Reads a point and the digits after it, of which there may be none. -/
def readTail : List Char → List Char × List Char
  | '.' :: rest => rest.span Charset.isDigit
  | text => ([], text)

/-- Reads the text of a floating-point number: a sign, and then a number with digits before or
after its point, or the name of one that has no digits, in any case. -/
def readBinary? (text : String) : Option Binary64 :=
  let (negative, text) := readSign text.toList
  let name := String.ofList (text.map Char.toLower)
  if name = "nan" then some .nan
  else if name = "inf" || name = "infinity" then some (.infinite negative)
  else
    let (whole, text) := text.span Charset.isDigit
    let (fraction, text) := readTail text
    let (exponent, text) := readExponent text
    if whole ++ fraction = [] || text ≠ [] then none
    else some (Numeral.toBinary ⟨negative, whole, some fraction, exponent⟩)

end SchemeLexer.Decimal
