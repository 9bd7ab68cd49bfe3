import SchemeLexer.Proofs.Json.Steps
import SchemeLexer.Proofs.Numeral.Grammar
/-!
# Written integers read back

An integer is written in digits without leading zeros, after a minus if it is negative. Reading
takes as much as it can for a number, so the integer is read back only where what follows cannot go
on with it: no digit, no point and no mark of an exponent.
-/

namespace SchemeLexer

namespace Decimal

/-! ## Digits -/

theorem value_toDigits (n : Nat) : value (Nat.toDigits 10 n) = n :=
  Nat.ofDigitChars_toDigits (by decide) (by decide)

theorem isDigit_of_mem_toDigits {n : Nat} {c : Char} (h : c ∈ Nat.toDigits 10 n) :
    Charset.isDigit c = true := by
  have hdigit := Nat.isDigit_of_mem_toDigits (by decide) (by decide) h
  simpa [Charset.isDigit, Char.isDigit, Char.le_def] using hdigit

theorem exists_toDigits_eq_digit (n : Nat) :
    ∃ d rest, Nat.toDigits 10 n = d :: rest ∧ Charset.isDigit d = true := by
  obtain ⟨d, rest, hdigits⟩ := List.exists_cons_of_ne_nil (Nat.toDigits_ne_nil (b := 10) (n := n))
  refine ⟨d, rest, hdigits, isDigit_of_mem_toDigits (n := n) ?_⟩
  rw [hdigits]
  exact List.mem_cons_self

/-- Only zero is written with a zero in front. -/
theorem exists_toDigits_eq_cons {n : Nat} (hn : 0 < n) :
    ∃ d rest, Nat.toDigits 10 n = d :: rest ∧ d ≠ '0' := by
  induction n using Nat.strongRecOn with
  | ind n ih =>
      by_cases hsmall : n < 10
      · refine ⟨Nat.digitChar n, [], Nat.toDigits_of_lt_base hsmall, ?_⟩
        intro hzero
        have hcode := Nat.toNat_digitChar_of_lt_ten hsmall
        have h0 : '0'.toNat = 48 := rfl
        rw [hzero] at hcode
        omega
      · have hpos : 0 < n / 10 := by omega
        obtain ⟨d, rest, hdigits, hd⟩ := ih (n / 10) (by omega) hpos
        refine ⟨d, rest ++ [Nat.digitChar (n % 10)], ?_, hd⟩
        rw [Nat.toDigits_of_base_le (by decide) (by omega), hdigits]
        rfl

/-- A character with which the number in front of it may go on. -/
def continues (c : Char) : Bool :=
  Charset.isDigit c || c = '.' || c = 'e' || c = 'E'

variable {rest : List Char}

theorem readDigits?_toDigits (n : Nat) (hrest : Stops continues rest) :
    readDigits? (Nat.toDigits 10 n ++ rest) = some (Nat.toDigits 10 n, rest) := by
  have hstops : Stops Charset.isDigit rest := hrest.mono fun c hc => by simp [continues, hc]
  obtain ⟨htake, hdrop⟩ :=
    takeWhile_append_of_stops (fun c => isDigit_of_mem_toDigits (n := n) (c := c)) hstops
  obtain ⟨d, digits, hdigits, -⟩ := exists_toDigits_eq_digit n
  rw [readDigits?, htake, hdrop, hdigits]

theorem readWhole?_toDigits (n : Nat) (hrest : Stops continues rest) :
    readWhole? (Nat.toDigits 10 n ++ rest) = some (Nat.toDigits 10 n, rest) := by
  rcases Nat.eq_zero_or_pos n with rfl | hn
  · rfl
  · obtain ⟨d, digits, hdigits, hd⟩ := exists_toDigits_eq_cons hn
    have hread := readDigits?_toDigits n hrest
    rw [hdigits] at hread ⊢
    rw [← hread]
    unfold readWhole?
    split
    · next heq => exact absurd (List.cons.inj heq).1 hd
    · rfl

theorem readFraction_of_stops (hrest : Stops continues rest) :
    readFraction rest = (none, rest) := by
  unfold readFraction
  split
  · exact absurd (hrest '.' rfl) (by decide)
  · rfl

theorem readExponent_of_stops (hrest : Stops continues rest) :
    readExponent rest = (none, rest) := by
  cases rest with
  | nil => rfl
  | cons c rest =>
      have hc := hrest c rfl
      simp only [continues, Bool.or_eq_false_iff, decide_eq_false_iff_not] at hc
      simp [readExponent, hc]

end Decimal

namespace Json

/-! ## Integers -/

def writtenInt (n : Int) : List Char :=
  if n < 0 then '-' :: Nat.toDigits 10 n.natAbs else Nat.toDigits 10 n.natAbs

/-- An integer begins with no blank, quote, bracket or byte order mark. -/
theorem exists_writtenInt_eq_cons (n : Int) :
    ∃ c rest, writtenInt n = c :: rest ∧ isBlank c = false ∧
      c ∉ ['"', '[', ']', '\x7b', '\ufeff'] := by
  unfold writtenInt
  split
  · exact ⟨'-', _, rfl, by decide, by decide⟩
  · obtain ⟨c, digits, hdigits, hc⟩ := Decimal.exists_toDigits_eq_digit n.natAbs
    have hne (d : Char) (hd : Charset.isDigit d = false) : c ≠ d := by
      rintro rfl
      rw [hc] at hd
      cases hd
    refine ⟨c, digits, hdigits, ?_, ?_⟩
    · simp [isBlank, hne ' ' (by decide), hne '\t' (by decide), hne '\n' (by decide),
        hne '\r' (by decide)]
    · simp [hne '"' (by decide), hne '[' (by decide), hne ']' (by decide), hne '\x7b' (by decide),
        hne '\ufeff' (by decide)]

theorem readMinus_writtenInt (n : Int) (rest : List Char) :
    Decimal.readMinus (writtenInt n ++ rest) =
      (decide (n < 0), Nat.toDigits 10 n.natAbs ++ rest) := by
  by_cases hneg : n < 0
  · simp [writtenInt, hneg, Decimal.readMinus]
  · obtain ⟨d, digits, hdigits, hd⟩ := Decimal.exists_toDigits_eq_digit n.natAbs
    simp only [writtenInt, hneg, if_false, decide_false, hdigits, List.cons_append]
    unfold Decimal.readMinus
    split
    · next heq =>
        rw [(List.cons.inj heq).1] at hd
        exact absurd hd (by decide)
    · rfl

variable {limits : Limits} {stack : List Frame} {rest : List Char}

theorem read?_writtenInt (n : Int) (hrest : Stops Decimal.continues rest) :
    Decimal.read? (writtenInt n ++ rest) =
      some (⟨decide (n < 0), Nat.toDigits 10 n.natAbs, none, none⟩, rest) := by
  simp [Decimal.read?, readMinus_writtenInt, Decimal.readWhole?_toDigits _ hrest,
    Decimal.readFraction_of_stops hrest, Decimal.readExponent_of_stops hrest]

theorem remainder_append (text rest : List Char) :
    remainder ((text ++ rest).map .char) rest = rest.map .char := by
  simp [remainder]

theorem readNumber_writtenInt {n : Int}
    (hlength : exceeds (Nat.toDigits 10 n.natAbs).length limits.digits = false)
    (hrest : Stops Decimal.continues rest) :
    readNumber limits ((writtenInt n ++ rest).map .char) = .ok (.int n, rest.map .char) := by
  have hvalue :
      Decimal.Numeral.toInt ⟨decide (n < 0), Nat.toDigits 10 n.natAbs, none, none⟩ = n := by
    simp only [Decimal.Numeral.toInt, Decimal.value_toDigits, decide_eq_true_eq]
    split <;> omega
  rw [readNumber, Text.map_shown_map_char, read?_writtenInt n hrest]
  simp only [Decimal.Numeral.isInteger, hlength, hvalue, remainder_append]
  rfl

/-- No word begins with a digit, and the one that begins with a minus goes on with a letter. -/
theorem readWord?_writtenInt (n : Int) (rest : List Char) :
    readWord? ((writtenInt n ++ rest).map .char) = none := by
  obtain ⟨d, digits, hdigits, hd⟩ := Decimal.exists_toDigits_eq_digit n.natAbs
  have hother (c : Char) (hc : Charset.isDigit c = false) : (c == d) = false := by
    rw [beq_eq_false_iff_ne]
    rintro rfl
    rw [hd] at hc
    cases hc
  have hn := hother 'n' (by decide)
  have ht := hother 't' (by decide)
  have hf := hother 'f' (by decide)
  have hN := hother 'N' (by decide)
  have hI := hother 'I' (by decide)
  have hminus := hother '-' (by decide)
  rw [readWord?, Text.map_shown_map_char]
  by_cases hneg : n < 0
  · simp [writtenInt, hneg, hdigits, words, List.isPrefixOf, hI]
  · simp [writtenInt, hneg, hdigits, words, List.isPrefixOf, hn, ht, hf, hN, hI, hminus]

theorem readScalar_writtenInt {n : Int}
    (hlength : exceeds (Nat.toDigits 10 n.natAbs).length limits.digits = false)
    (hrest : Stops Decimal.continues rest) :
    readScalar limits ((writtenInt n ++ rest).map .char) = .ok (.int n, rest.map .char) := by
  obtain ⟨c, tail, hwritten, -, hc⟩ := exists_writtenInt_eq_cons n
  unfold readScalar
  split
  · next heq =>
      rw [hwritten] at heq
      rw [CodePoint.char.inj (List.cons.inj heq).1] at hc
      exact absurd hc (by decide)
  · rw [readWord?_writtenInt]
    exact readNumber_writtenInt hlength hrest

theorem runPlain_writtenInt {n : Int}
    (hlength : exceeds (Nat.toDigits 10 n.natAbs).length limits.digits = false)
    (hrest : Stops Decimal.continues rest) :
    runPlain limits (.value stack) (writtenInt n ++ rest) =
      runPlain limits (.complete (.int n) stack) rest := by
  have hread := readScalar_writtenInt hlength hrest
  obtain ⟨c, tail, hwritten, hblank, hc⟩ := exists_writtenInt_eq_cons n
  simp only [List.mem_cons, List.not_mem_nil, or_false, not_or] at hc
  obtain ⟨-, harray, -, hobject, -⟩ := hc
  rw [hwritten, List.cons_append] at hread ⊢
  apply runPlain_of_item hblank
  rw [List.map_cons] at hread
  simp only [item, beginValue, CodePoint.char.injEq, harray, hobject, if_false, hread]
  rfl

end Json

end SchemeLexer
