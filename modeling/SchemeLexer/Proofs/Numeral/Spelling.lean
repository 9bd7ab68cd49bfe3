import Mathlib.Data.List.TakeWhile
import SchemeLexer.Numeral
/-!
# The spelling of numerals

Each part of a numeral has one spelling. A reader that takes a part off the front of a text has
read exactly the spelling of that part, and a lexeme that is read as a numeral is the spelling of
that numeral. All characters of a spelling are ones that may also stand in an identifier.
-/

namespace SchemeLexer

/-! ## Spellings -/

def Sign.char : Sign → Char
  | .plus => '+'
  | .minus => '-'

def Sign.spelled (sign : Option Sign) : List Char :=
  (sign.map Sign.char).toList

namespace Decimals

def IsDigits (digits : List Char) : Prop :=
  digits ≠ [] ∧ ∀ c ∈ digits, Charset.isDigit c = true

/-- The digits of a whole number: a lone zero, or digits of which the first is not zero. -/
def IsWhole (digits : List Char) : Prop :=
  digits = ['0'] ∨ IsDigits digits ∧ digits.head? ≠ some '0'

def spelledFraction : Option (List Char) → List Char
  | none => []
  | some digits => '.' :: digits

def spelled (d : Decimals) : List Char :=
  d.whole ++ spelledFraction d.fraction

/-- A decimal with the digits that the grammar allows. -/
structure Valid (d : Decimals) : Prop where
  whole : IsWhole d.whole
  fraction : ∀ digits ∈ d.fraction, IsDigits digits

end Decimals

namespace Magnitude

def spelled : Magnitude → List Char
  | .real value => value.spelled
  | .ratio numerator denominator => numerator.spelled ++ '/' :: denominator.spelled

def Valid : Magnitude → Prop
  | .real value => value.Valid
  | .ratio numerator denominator => numerator.Valid ∧ denominator.Valid

end Magnitude

namespace Numeral

def spelled : Numeral → List Char
  | .real sign value => Sign.spelled sign ++ value.spelled
  | .rational sign numerator denominator =>
      Sign.spelled sign ++ (Magnitude.ratio numerator denominator).spelled
  | .complex sign re imSign im =>
      Sign.spelled sign ++ re.spelled ++ imSign.char :: (im.spelled ++ ['i'])
  | .imaginary sign none => [sign.char, 'i']
  | .imaginary sign (some magnitude) => sign.char :: (magnitude.spelled ++ ['i'])

def Valid : Numeral → Prop
  | .real _ value => value.Valid
  | .rational _ numerator denominator => numerator.Valid ∧ denominator.Valid
  | .complex _ re _ im => re.Valid ∧ im.Valid
  | .imaginary _ magnitude => ∀ m ∈ magnitude, m.Valid

end Numeral

/-! ## A part read off the front -/

theorem Sign.eq_of_read? {text rest : List Char} {sign : Sign}
    (h : Sign.read? text = some (sign, rest)) : text = sign.char :: rest := by
  unfold read? at h
  split at h
  all_goals cases h
  all_goals rfl

theorem Sign.eq_of_readOptional (text : List Char) :
    text = Sign.spelled (Sign.readOptional text).1 ++ (Sign.readOptional text).2 := by
  unfold readOptional
  split
  · next sign rest h => rw [Sign.eq_of_read? h]; rfl
  · rfl

namespace Decimals

theorem isDigits_cons_takeWhile {d : Char} (hd : Charset.isDigit d = true)
    (text : List Char) : IsDigits (d :: text.takeWhile Charset.isDigit) := by
  refine ⟨by simp, ?_⟩
  intro c hc
  rcases List.mem_cons.1 hc with rfl | hc
  · exact hd
  · exact List.mem_takeWhile_imp hc

theorem eq_of_readWhole? {text whole rest : List Char}
    (h : readWhole? text = some (whole, rest)) : text = whole ++ rest ∧ IsWhole whole := by
  cases text with
  | nil => cases h
  | cons d text =>
      simp only [readWhole?] at h
      split_ifs at h with hzero hdigit
      · cases h
        exact ⟨by rw [hzero]; rfl, Or.inl rfl⟩
      · cases h
        refine ⟨by simp, Or.inr ⟨isDigits_cons_takeWhile hdigit text, ?_⟩⟩
        simpa using hzero

theorem eq_of_readFraction {text rest : List Char} {fraction : Option (List Char)}
    (h : readFraction text = (fraction, rest)) :
    text = spelledFraction fraction ++ rest ∧ ∀ digits ∈ fraction, IsDigits digits := by
  unfold readFraction at h
  split at h
  · next d text =>
      split_ifs at h with hdigit
      · cases h
        refine ⟨by simp [spelledFraction], ?_⟩
        rintro digits ⟨⟩
        exact isDigits_cons_takeWhile hdigit text
      · cases h
        exact ⟨rfl, by simp⟩
  · cases h
    exact ⟨rfl, by simp⟩

theorem eq_of_read? {text rest : List Char} {d : Decimals}
    (h : read? text = some (d, rest)) : text = d.spelled ++ rest ∧ d.Valid := by
  obtain ⟨⟨whole, afterWhole⟩, hwhole, h⟩ := Option.bind_eq_some_iff.1 h
  obtain ⟨htext, hvalid⟩ := eq_of_readWhole? hwhole
  cases hfraction : readFraction afterWhole with
  | mk fraction afterFraction =>
      obtain ⟨hrest, hdigits⟩ := eq_of_readFraction hfraction
      simp only [hfraction] at h
      cases h
      exact ⟨by simp [spelled, htext, hrest], hvalid, hdigits⟩

end Decimals

namespace Magnitude

theorem eq_of_readRatio? {text rest : List Char} {numerator denominator : Decimals}
    (h : readRatio? text = some (numerator, denominator, rest)) :
    text = (ratio numerator denominator).spelled ++ rest ∧
      (ratio numerator denominator).Valid := by
  obtain ⟨⟨n, afterNumerator⟩, hnumerator, h⟩ := Option.bind_eq_some_iff.1 h
  obtain ⟨htext, hn⟩ := Decimals.eq_of_read? hnumerator
  dsimp only at h
  split at h
  · next afterSlash =>
      obtain ⟨⟨d, afterDenominator⟩, hdenominator, h⟩ := Option.bind_eq_some_iff.1 h
      obtain ⟨hrest, hd⟩ := Decimals.eq_of_read? hdenominator
      cases h
      exact ⟨by simp [spelled, htext, hrest], hn, hd⟩
  · cases h

theorem eq_of_read? {text rest : List Char} {m : Magnitude}
    (h : read? text = some (m, rest)) : text = m.spelled ++ rest ∧ m.Valid := by
  unfold read? at h
  split at h
  · next numerator denominator afterRatio hratio =>
      cases h
      exact eq_of_readRatio? hratio
  · obtain ⟨⟨value, afterValue⟩, hvalue, h⟩ := Option.map_eq_some_iff.1 h
    cases h
    exact Decimals.eq_of_read? hvalue

end Magnitude

/-! ## A whole lexeme -/

namespace Numeral

theorem eq_of_readReal? {lexeme : List Char} {n : Numeral} (h : readReal? lexeme = some n) :
    lexeme = n.spelled ∧ n.Valid := by
  have hsign := Sign.eq_of_readOptional lexeme
  obtain ⟨⟨value, rest⟩, hvalue, h⟩ := Option.bind_eq_some_iff.1 h
  obtain ⟨hspelled, hvalid⟩ := Decimals.eq_of_read? hvalue
  dsimp only at h
  split_ifs at h with hend
  cases h
  refine ⟨?_, hvalid⟩
  rw [List.isEmpty_iff.1 hend, List.append_nil] at hspelled
  rw [spelled, ← hspelled]
  exact hsign

theorem eq_of_readRational? {lexeme : List Char} {n : Numeral}
    (h : readRational? lexeme = some n) : lexeme = n.spelled ∧ n.Valid := by
  have hsign := Sign.eq_of_readOptional lexeme
  obtain ⟨⟨numerator, denominator, rest⟩, hratio, h⟩ := Option.bind_eq_some_iff.1 h
  obtain ⟨hspelled, hvalid⟩ := Magnitude.eq_of_readRatio? hratio
  dsimp only at h
  split_ifs at h with hend
  cases h
  refine ⟨?_, hvalid⟩
  rw [List.isEmpty_iff.1 hend, List.append_nil] at hspelled
  rw [spelled, ← hspelled]
  exact hsign

theorem eq_of_readComplex? {lexeme : List Char} {n : Numeral}
    (h : readComplex? lexeme = some n) : lexeme = n.spelled ∧ n.Valid := by
  have hsign := Sign.eq_of_readOptional lexeme
  obtain ⟨⟨re, afterRe⟩, hre, h⟩ := Option.bind_eq_some_iff.1 h
  obtain ⟨⟨imSign, afterSign⟩, himSign, h⟩ := Option.bind_eq_some_iff.1 h
  obtain ⟨⟨im, rest⟩, him, h⟩ := Option.bind_eq_some_iff.1 h
  obtain ⟨hreSpelled, hreValid⟩ := Magnitude.eq_of_read? hre
  obtain ⟨himSpelled, himValid⟩ := Magnitude.eq_of_read? him
  have himChar := Sign.eq_of_read? himSign
  dsimp only at h himChar himSpelled
  split_ifs at h with hend
  cases h
  refine ⟨?_, hreValid, himValid⟩
  rw [himChar, himSpelled, hend] at hreSpelled
  rw [spelled, List.append_assoc, ← hreSpelled]
  exact hsign

theorem eq_of_readImaginary? {lexeme : List Char} {n : Numeral}
    (h : readImaginary? lexeme = some n) : lexeme = n.spelled ∧ n.Valid := by
  obtain ⟨⟨sign, afterSign⟩, hsign, h⟩ := Option.bind_eq_some_iff.1 h
  have hchar := Sign.eq_of_read? hsign
  dsimp only at h
  split_ifs at h with hunit
  · cases h
    refine ⟨by rw [hchar, hunit]; rfl, ?_⟩
    simp [Valid]
  · obtain ⟨⟨magnitude, rest⟩, hmagnitude, h⟩ := Option.bind_eq_some_iff.1 h
    obtain ⟨hspelled, hvalid⟩ := Magnitude.eq_of_read? hmagnitude
    dsimp only at h
    split_ifs at h with hend
    cases h
    refine ⟨by rw [hchar, hspelled, hend]; rfl, ?_⟩
    rintro m ⟨⟩
    exact hvalid

/-- A lexeme that is read as a numeral of any shape is the spelling of that numeral. -/
theorem eq_of_shape_read? {s : Shape} {lexeme : List Char} {n : Numeral}
    (h : s.read? lexeme = some n) : lexeme = n.spelled ∧ n.Valid := by
  cases s with
  | real => exact eq_of_readReal? h
  | rational => exact eq_of_readRational? h
  | complex => exact eq_of_readComplex? h
  | imaginary => exact eq_of_readImaginary? h

theorem exists_of_accepts {lexeme : List Char} (h : accepts lexeme = true) :
    ∃ n : Numeral, lexeme = n.spelled ∧ n.Valid := by
  obtain ⟨s, _, hs⟩ := List.any_eq_true.1 h
  obtain ⟨n, hn⟩ := Option.isSome_iff_exists.1 hs
  exact ⟨n, eq_of_shape_read? hn⟩

end Numeral

/-! ## The characters of a spelling -/

theorem isSubsequent_of_isDigit {c : Char} (h : Charset.isDigit c = true) :
    Charset.isSubsequent c = true := by
  simp [Charset.isSubsequent, h]

namespace Decimals

theorem IsWhole.isSubsequent {digits : List Char} (h : IsWhole digits) :
    ∀ c ∈ digits, Charset.isSubsequent c = true := by
  rcases h with rfl | ⟨hdigits, _⟩
  · exact List.forall_mem_singleton.2 (by decide)
  · intro c hc
    exact isSubsequent_of_isDigit (hdigits.2 c hc)

theorem IsWhole.ne_nil {digits : List Char} (h : IsWhole digits) : digits ≠ [] := by
  rcases h with rfl | ⟨hdigits, _⟩
  · simp
  · exact hdigits.1

theorem Valid.isSubsequent {d : Decimals} (h : d.Valid) :
    ∀ c ∈ d.spelled, Charset.isSubsequent c = true := by
  rw [spelled, List.forall_mem_append]
  refine ⟨h.whole.isSubsequent, ?_⟩
  cases hfraction : d.fraction with
  | none => simp [spelledFraction]
  | some digits =>
      have hdigits := h.fraction digits hfraction
      rw [spelledFraction, List.forall_mem_cons]
      exact ⟨by decide, fun c hc => isSubsequent_of_isDigit (hdigits.2 c hc)⟩

theorem Valid.spelled_ne_nil {d : Decimals} (h : d.Valid) : d.spelled ≠ [] := by
  simp [spelled, h.whole.ne_nil]

end Decimals

theorem Magnitude.Valid.isSubsequent {m : Magnitude} (h : m.Valid) :
    ∀ c ∈ m.spelled, Charset.isSubsequent c = true := by
  cases m with
  | real value => exact Decimals.Valid.isSubsequent h
  | ratio numerator denominator =>
      obtain ⟨hnumerator, hdenominator⟩ := h
      rw [spelled, List.forall_mem_append]
      refine ⟨hnumerator.isSubsequent, List.forall_mem_cons.2 ⟨by decide, ?_⟩⟩
      exact hdenominator.isSubsequent

theorem Sign.isSubsequent_char (sign : Sign) : Charset.isSubsequent sign.char = true := by
  cases sign <;> decide

theorem Sign.isSubsequent_spelled (sign : Option Sign) :
    ∀ c ∈ Sign.spelled sign, Charset.isSubsequent c = true := by
  cases sign with
  | none => simp [spelled]
  | some sign => simpa [spelled] using sign.isSubsequent_char

namespace Numeral

theorem Valid.isSubsequent {n : Numeral} (h : n.Valid) :
    ∀ c ∈ n.spelled, Charset.isSubsequent c = true := by
  have hunit : ∀ c ∈ ['i'], Charset.isSubsequent c = true :=
    List.forall_mem_singleton.2 (by decide)
  cases n with
  | real sign value =>
      exact List.forall_mem_append.2 ⟨Sign.isSubsequent_spelled sign, Decimals.Valid.isSubsequent h⟩
  | rational sign numerator denominator =>
      have hratio : (Magnitude.ratio numerator denominator).Valid := h
      exact List.forall_mem_append.2 ⟨Sign.isSubsequent_spelled sign, hratio.isSubsequent⟩
  | complex sign re imSign im =>
      obtain ⟨hre, him⟩ := h
      have hfront := List.forall_mem_append.2 ⟨Sign.isSubsequent_spelled sign, hre.isSubsequent⟩
      have hback := List.forall_mem_append.2 ⟨him.isSubsequent, hunit⟩
      exact List.forall_mem_append.2
        ⟨hfront, List.forall_mem_cons.2 ⟨imSign.isSubsequent_char, hback⟩⟩
  | imaginary sign magnitude =>
      cases magnitude with
      | none => exact List.forall_mem_cons.2 ⟨sign.isSubsequent_char, hunit⟩
      | some m =>
          have hback := List.forall_mem_append.2 ⟨(h m rfl).isSubsequent, hunit⟩
          exact List.forall_mem_cons.2 ⟨sign.isSubsequent_char, hback⟩

theorem Valid.spelled_ne_nil {n : Numeral} (h : n.Valid) : n.spelled ≠ [] := by
  cases n with
  | real sign value => simp [spelled, Decimals.Valid.spelled_ne_nil h]
  | rational sign numerator denominator => simp [spelled, Magnitude.spelled]
  | complex sign re imSign im => simp [spelled]
  | imaginary sign magnitude => cases magnitude <;> simp [spelled]

end Numeral

/-! ## The first character of a spelling -/

def BeginsWithDigit (text : List Char) : Prop :=
  ∃ d rest, text = d :: rest ∧ Charset.isDigit d = true

theorem BeginsWithDigit.append {text : List Char} (h : BeginsWithDigit text)
    (more : List Char) : BeginsWithDigit (text ++ more) := by
  obtain ⟨d, rest, rfl, hd⟩ := h
  exact ⟨d, rest ++ more, rfl, hd⟩

theorem BeginsWithDigit.ne_nil {text : List Char} (h : BeginsWithDigit text) : text ≠ [] := by
  obtain ⟨d, rest, rfl, -⟩ := h
  simp

theorem Decimals.Valid.beginsWithDigit {d : Decimals} (h : d.Valid) :
    BeginsWithDigit d.spelled := by
  have hwhole : BeginsWithDigit d.whole := by
    rcases h.whole with hzero | ⟨⟨hne, hdigits⟩, -⟩
    · exact ⟨'0', [], hzero, rfl⟩
    · obtain ⟨c, rest, heq⟩ := List.exists_cons_of_ne_nil hne
      exact ⟨c, rest, heq, hdigits c (by simp [heq])⟩
  exact hwhole.append _

theorem Magnitude.Valid.beginsWithDigit {m : Magnitude} (h : m.Valid) :
    BeginsWithDigit m.spelled := by
  cases m with
  | real value => exact Decimals.Valid.beginsWithDigit h
  | ratio numerator denominator => exact h.1.beginsWithDigit.append _

end SchemeLexer
