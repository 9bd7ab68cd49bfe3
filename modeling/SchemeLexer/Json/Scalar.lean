import SchemeLexer.Decimal.Reading
import SchemeLexer.Json.Failure
import SchemeLexer.Value.Description
/-!
# Scalars of JSON text

Strings, words and numbers, each read off the front of a text. What is read is never empty, so
the text after it is shorter.
-/

namespace SchemeLexer.Json

/-- How long integers and how deep containers may be; without a limit everything is read. -/
structure Limits where
  digits : Option Nat
  depth : Option Nat
  deriving DecidableEq, Repr

def Limits.standard [Budget] : Limits := ⟨some digitLimit, some Budget.depth⟩

def Limits.none : Limits := ⟨.none, .none⟩

def exceeds (n : Nat) : Option Nat → Bool
  | .none => false
  | some limit => limit < n

/-! ## Strings -/

def hexDigit? (c : Char) : Option Nat :=
  if '0' ≤ c && c ≤ '9' then some (c.toNat - '0'.toNat)
  else if 'a' ≤ c && c ≤ 'f' then some (c.toNat - 'a'.toNat + 10)
  else if 'A' ≤ c && c ≤ 'F' then some (c.toNat - 'A'.toNat + 10)
  else none

def hexUnit? (a b c d : Char) : Option Nat := do
  let a ← hexDigit? a
  let b ← hexDigit? b
  let c ← hexDigit? c
  let d ← hexDigit? d
  return a * 0x1000 + b * 0x100 + c * 0x10 + d

def escape? (c : Char) : Option Char :=
  if c = '"' || c = '\\' || c = '/' then some c
  else if c = 'b' then some '\x08'
  else if c = 'f' then some '\x0c'
  else if c = 'n' then some '\n'
  else if c = 'r' then some '\r'
  else if c = 't' then some '\t'
  else none

/-- Code points with those of the units after them, all with the latest first. -/
def settled (points : List CodePoint) (units : List Nat) : List CodePoint :=
  (Text.ofUnits units.reverse).reverse ++ points

/-- Reads a string from after its opening quote, where `opening` is the text from that quote on. The
string so far is `points` and after them `units`, which are escaped by their numbers, both with the
latest first. A numeric escape has to be followed by at least one more character. -/
def readString (opening points : List CodePoint) (units : List Nat) :
    List CodePoint → Except Failure (Text × List CodePoint)
  | [] => .error (.syntactic .unterminatedString opening)
  | .char '"' :: rest => .ok (.ofPoints (settled points units).reverse, rest)
  | .char '\\' :: .char 'u' :: a :: b :: c :: d :: e :: rest =>
      match hexUnit? a.shown b.shown c.shown d.shown with
      | some unit => readString opening points (unit :: units) (e :: rest)
      | none =>
          .error (.syntactic .invalidUnicodeEscape (.char 'u' :: a :: b :: c :: d :: e :: rest))
  | .char '\\' :: .char 'u' :: rest =>
      .error (.syntactic .invalidUnicodeEscape (.char 'u' :: rest))
  | .char '\\' :: p :: rest =>
      match escape? p.shown with
      | some found => readString opening (.char found :: settled points units) [] rest
      | none => .error (.syntactic .invalidEscape (.char '\\' :: p :: rest))
  | .char '\\' :: [] => .error (.syntactic .unterminatedString opening)
  | p :: rest =>
      if p.shown.toNat < 0x20 then .error (.syntactic .controlCharacter (p :: rest))
      else readString opening (p :: settled points units) [] rest

/-! ## Scalars -/

def words : List (List Char × Value) :=
  [(['n', 'u', 'l', 'l'], .null), (['t', 'r', 'u', 'e'], .bool true),
    (['f', 'a', 'l', 's', 'e'], .bool false), (['N', 'a', 'N'], .float .nan),
    (['I', 'n', 'f', 'i', 'n', 'i', 't', 'y'], .float (.infinite false)),
    (['-', 'I', 'n', 'f', 'i', 'n', 'i', 't', 'y'], .float (.infinite true))]

/-- What is left of code points when so many of the characters that they are shown as are. -/
def remainder (text : List CodePoint) (left : List Char) : List CodePoint :=
  text.drop (text.length - left.length)

def readWord? (text : List CodePoint) : Option (Value × List CodePoint) :=
  (words.find? fun (word, _) => word.isPrefixOf (text.map CodePoint.shown)).map
    fun (word, value) => (value, text.drop word.length)

/-- Reads a number: an integer, or a floating-point number if it has a fraction or an exponent. -/
def readNumber (limits : Limits) (text : List CodePoint) :
    Except Failure (Value × List CodePoint) :=
  match Decimal.read? (text.map CodePoint.shown) with
  | none => .error (.syntactic .expectingValue text)
  | some (n, left) =>
      if n.isInteger then
        if exceeds n.whole.length limits.digits then
          .error (.hugeInteger n.whole.length (limits.digits.getD 0))
        else .ok (.int n.toInt, remainder text left)
      else .ok (.float n.toBinary, remainder text left)

def readScalar (limits : Limits) (text : List CodePoint) :
    Except Failure (Value × List CodePoint) :=
  match text with
  | .char '"' :: rest => (readString text [] [] rest).map fun (s, rest) => (.text s, rest)
  | _ =>
      match readWord? text with
      | some found => .ok found
      | none => readNumber limits text

/-! ## What is left is shorter -/

theorem readString_shorter {opening points text rest : List CodePoint} {units : List Nat}
    {s : Text} (h : readString opening points units text = .ok (s, rest)) :
    rest.length < text.length := by
  fun_induction readString opening points units text with
  | case1 => cases h
  | case2 points units rest' =>
      cases h
      simp
  | case3 points units a b c d e rest' unit hunit ih =>
      have := ih h
      simp only [List.length_cons] at this ⊢
      omega
  | case4 => cases h
  | case5 => cases h
  | case6 points units c rest' _ _ found hfound ih =>
      have := ih h
      simp only [List.length_cons]
      omega
  | case7 => cases h
  | case8 => cases h
  | case9 => cases h
  | case10 points units c rest' _ _ _ _ _ _ ih =>
      have := ih h
      simp only [List.length_cons]
      omega

private theorem readWord?_shorter {text rest : List CodePoint} {v : Value}
    (h : readWord? text = some (v, rest)) : rest.length < text.length := by
  obtain ⟨⟨word, value⟩, hfind, heq⟩ := Option.map_eq_some_iff.1 h
  have hmem := List.mem_of_find?_eq_some hfind
  have hword : 0 < word.length := by
    simp only [words, List.mem_cons, List.not_mem_nil, or_false, Prod.mk.injEq] at hmem
    rcases hmem with ⟨rfl, _⟩ | ⟨rfl, _⟩ | ⟨rfl, _⟩ | ⟨rfl, _⟩ | ⟨rfl, _⟩ | ⟨rfl, _⟩ <;> simp
  have hstarts := List.find?_some hfind
  have hle := (List.isPrefixOf_iff_prefix.1 hstarts).length_le
  rw [List.length_map] at hle
  cases heq
  rw [List.length_drop]
  omega

private theorem readNumber_shorter {limits : Limits} {text rest : List CodePoint} {v : Value}
    (h : readNumber limits text = .ok (v, rest)) : rest.length < text.length := by
  unfold readNumber at h
  split at h
  · cases h
  · next n left hread =>
      have hleft := Decimal.read?_shorter hread
      rw [List.length_map] at hleft
      have hshorter : (remainder text left).length < text.length := by
        rw [remainder, List.length_drop]
        omega
      split at h
      · split at h
        · cases h
        · cases h
          exact hshorter
      · cases h
        exact hshorter

theorem readScalar_shorter {limits : Limits} {text rest : List CodePoint} {v : Value}
    (h : readScalar limits text = .ok (v, rest)) : rest.length < text.length := by
  unfold readScalar at h
  split at h
  · next tail =>
      cases hread : readString (.char '"' :: tail) [] [] tail with
      | error e => rw [hread] at h; cases h
      | ok found =>
          rw [hread] at h
          cases h
          have := readString_shorter hread
          simp only [List.length_cons]
          omega
  · split at h
    · next hword =>
        cases h
        exact readWord?_shorter hword
    · exact readNumber_shorter h

end SchemeLexer.Json
