import SchemeLexer.Proofs.Numeral.Spelling
/-!
# The grammar of numerals

Reading a part off the front of a text takes exactly the spelling of that part, provided that what
follows cannot go on it: nothing that follows a part in the grammar begins with a digit, a point
or a slash, apart from the slash of a ratio itself. So a numeral is read back from its spelling,
each shape accepts the spellings of its numerals and nothing else, and no text is the spelling of
two numerals.
-/

namespace SchemeLexer

/-! ## Where a part ends -/

/-- The text does not begin with a character of the class. -/
def Stops (p : Char → Bool) (text : List Char) : Prop :=
  ∀ c ∈ text.head?, p c = false

theorem stops_nil (p : Char → Bool) : Stops p [] := by
  simp [Stops]

theorem stops_cons {p : Char → Bool} {c : Char} (rest : List Char) (h : p c = false) :
    Stops p (c :: rest) := by
  simpa [Stops] using h

theorem Stops.mono {p q : Char → Bool} {text : List Char} (h : Stops p text)
    (hqp : ∀ c, q c = true → p c = true) : Stops q text := by
  intro c hc
  rw [Bool.eq_false_iff]
  intro hq
  have hp := h c hc
  rw [hqp c hq] at hp
  cases hp

theorem takeWhile_append_of_stops {p : Char → Bool} {digits rest : List Char}
    (hdigits : ∀ c ∈ digits, p c = true) (hrest : Stops p rest) :
    (digits ++ rest).takeWhile p = digits ∧ (digits ++ rest).dropWhile p = rest := by
  rw [List.takeWhile_append_of_pos hdigits, List.dropWhile_append_of_pos hdigits]
  cases rest with
  | nil => simp
  | cons c rest =>
      have hc : p c = false := hrest c rfl
      simp [hc]

namespace Decimals

def continues (c : Char) : Bool := Charset.isDigit c || c = '.'

theorem continues_of_isDigit (c : Char) (h : Charset.isDigit c = true) : continues c = true := by
  simp [continues, h]

end Decimals

def Magnitude.continues (c : Char) : Bool := Decimals.continues c || c = '/'

theorem Magnitude.continues_of_decimals (c : Char) (h : Decimals.continues c = true) :
    continues c = true := by
  simp [continues, h]

theorem Sign.continues_char (sign : Sign) : Magnitude.continues sign.char = false := by
  cases sign <;> decide

/-! ## A part is read off the front -/

theorem Sign.read?_char_cons (sign : Sign) (rest : List Char) :
    Sign.read? (sign.char :: rest) = some (sign, rest) := by
  cases sign <;> rfl

theorem Sign.readOptional_spelled (sign : Option Sign) {text : List Char}
    (h : BeginsWithDigit text) :
    Sign.readOptional (Sign.spelled sign ++ text) = (sign, text) := by
  cases sign with
  | some sign =>
      have hread := Sign.read?_char_cons sign text
      simp [spelled, readOptional, hread]
  | none =>
      obtain ⟨d, rest, rfl, hd⟩ := h
      have hread : Sign.read? (d :: rest) = none := by
        unfold read?
        split
        · next heq => cases heq; exact absurd hd (by decide)
        · next heq => cases heq; exact absurd hd (by decide)
        · rfl
      simp [spelled, readOptional, hread]

namespace Decimals

theorem readWhole?_append {whole rest : List Char} (h : IsWhole whole)
    (hrest : Stops Charset.isDigit rest) :
    readWhole? (whole ++ rest) = some (whole, rest) := by
  rcases h with rfl | ⟨⟨hne, hdigits⟩, hzero⟩
  · rfl
  · obtain ⟨d, digits, rfl⟩ := List.exists_cons_of_ne_nil hne
    obtain ⟨hd, hdigits⟩ := List.forall_mem_cons.1 hdigits
    obtain ⟨htake, hdrop⟩ := takeWhile_append_of_stops hdigits hrest
    have hd0 : d ≠ '0' := by simpa using hzero
    simp [readWhole?, hd0, hd, htake, hdrop]

theorem readFraction_append {fraction : Option (List Char)} {rest : List Char}
    (h : ∀ digits ∈ fraction, IsDigits digits) (hrest : Stops continues rest) :
    readFraction (spelledFraction fraction ++ rest) = (fraction, rest) := by
  cases fraction with
  | none =>
      rw [spelledFraction, List.nil_append]
      unfold readFraction
      split
      · exact absurd (hrest '.' rfl) (by decide)
      · rfl
  | some digits =>
      obtain ⟨hne, hdigits⟩ := h digits rfl
      obtain ⟨d, digits, rfl⟩ := List.exists_cons_of_ne_nil hne
      obtain ⟨hd, hdigits⟩ := List.forall_mem_cons.1 hdigits
      obtain ⟨htake, hdrop⟩ :=
        takeWhile_append_of_stops hdigits (hrest.mono continues_of_isDigit)
      simp [spelledFraction, readFraction, hd, htake, hdrop]

theorem stops_spelledFraction (fraction : Option (List Char)) {rest : List Char}
    (hrest : Stops continues rest) :
    Stops Charset.isDigit (spelledFraction fraction ++ rest) := by
  cases fraction with
  | none => exact hrest.mono continues_of_isDigit
  | some digits => exact stops_cons _ (by decide)

theorem Valid.read?_append {d : Decimals} {rest : List Char} (h : d.Valid)
    (hrest : Stops continues rest) : read? (d.spelled ++ rest) = some (d, rest) := by
  have hwhole := readWhole?_append h.whole (stops_spelledFraction d.fraction hrest)
  have hfraction := readFraction_append h.fraction hrest
  rw [spelled, List.append_assoc]
  simp [read?, hwhole, hfraction]

end Decimals

namespace Magnitude

theorem readRatio?_append {numerator denominator : Decimals} {rest : List Char}
    (hnumerator : numerator.Valid) (hdenominator : denominator.Valid)
    (hrest : Stops Decimals.continues rest) :
    readRatio? ((ratio numerator denominator).spelled ++ rest) =
      some (numerator, denominator, rest) := by
  have hslash : Stops Decimals.continues ('/' :: (denominator.spelled ++ rest)) :=
    stops_cons _ (by decide)
  have hread := hnumerator.read?_append hslash
  have hread' := hdenominator.read?_append hrest
  rw [spelled, List.append_assoc, List.cons_append]
  simp [readRatio?, hread, hread']

/-- A decimal is not taken for the first half of a ratio. -/
theorem readRatio?_append_eq_none {value : Decimals} {rest : List Char} (hvalue : value.Valid)
    (hrest : Stops continues rest) : readRatio? (value.spelled ++ rest) = none := by
  have hread := hvalue.read?_append (hrest.mono continues_of_decimals)
  simp only [readRatio?, hread, bind, Option.bind]
  split
  · exact absurd (hrest '/' rfl) (by decide)
  · rfl

theorem Valid.read?_append {m : Magnitude} {rest : List Char} (h : m.Valid)
    (hrest : Stops continues rest) : read? (m.spelled ++ rest) = some (m, rest) := by
  have hdecimals := hrest.mono continues_of_decimals
  cases m with
  | real value =>
      have hvalue : value.Valid := h
      have hratio := readRatio?_append_eq_none hvalue hrest
      have hread := hvalue.read?_append hdecimals
      simp [read?, spelled, hratio, hread]
  | ratio numerator denominator =>
      have hratio := readRatio?_append h.1 h.2 hdecimals
      simp [read?, hratio]

end Magnitude

/-! ## A numeral is read back from its spelling -/

namespace Numeral

def shape : Numeral → Shape
  | .real _ _ => .real
  | .rational _ _ _ => .rational
  | .complex _ _ _ _ => .complex
  | .imaginary _ _ => .imaginary

theorem Shape.mem_all (s : Shape) : s ∈ all := by
  cases s <;> decide

theorem stops_unit : Stops Magnitude.continues ['i'] :=
  stops_cons _ (by decide)

theorem stops_sign (sign : Sign) (rest : List Char) :
    Stops Magnitude.continues (sign.char :: rest) :=
  stops_cons _ sign.continues_char

theorem readReal?_spelled (sign : Option Sign) {value : Decimals} (h : value.Valid) :
    readReal? (real sign value).spelled = some (real sign value) := by
  have hsign := Sign.readOptional_spelled sign h.beginsWithDigit
  have hread := h.read?_append (stops_nil _)
  rw [List.append_nil] at hread
  simp [spelled, readReal?, hsign, hread]

theorem readRational?_spelled (sign : Option Sign) {numerator denominator : Decimals}
    (h : (Magnitude.ratio numerator denominator).Valid) :
    readRational? (rational sign numerator denominator).spelled =
      some (rational sign numerator denominator) := by
  have hsign := Sign.readOptional_spelled sign h.beginsWithDigit
  have hread := Magnitude.readRatio?_append h.1 h.2 (stops_nil _)
  rw [List.append_nil] at hread
  simp [spelled, readRational?, hsign, hread]

theorem readComplex?_spelled (sign : Option Sign) {re : Magnitude} (imSign : Sign)
    {im : Magnitude} (hre : re.Valid) (him : im.Valid) :
    readComplex? (complex sign re imSign im).spelled = some (complex sign re imSign im) := by
  have hbegins := hre.beginsWithDigit.append (imSign.char :: (im.spelled ++ ['i']))
  have hsign := Sign.readOptional_spelled sign hbegins
  have hreadRe := hre.read?_append (stops_sign imSign (im.spelled ++ ['i']))
  have hreadSign := Sign.read?_char_cons imSign (im.spelled ++ ['i'])
  have hreadIm := him.read?_append stops_unit
  rw [spelled, List.append_assoc]
  simp [readComplex?, hsign, hreadRe, hreadSign, hreadIm]

theorem readImaginary?_spelled (sign : Sign) {magnitude : Option Magnitude}
    (h : ∀ m ∈ magnitude, m.Valid) :
    readImaginary? (imaginary sign magnitude).spelled = some (imaginary sign magnitude) := by
  cases magnitude with
  | none =>
      have hsign := Sign.read?_char_cons sign ['i']
      simp [spelled, readImaginary?, hsign]
  | some m =>
      have hm := h m rfl
      have hsign := Sign.read?_char_cons sign (m.spelled ++ ['i'])
      have hread := hm.read?_append stops_unit
      have hne : m.spelled ≠ [] := hm.beginsWithDigit.ne_nil
      simp [spelled, readImaginary?, hsign, hread, hne]

theorem Valid.read?_spelled {n : Numeral} (h : n.Valid) :
    n.shape.read? n.spelled = some n := by
  cases n with
  | real sign value => exact readReal?_spelled sign h
  | rational sign numerator denominator => exact readRational?_spelled sign h
  | complex sign re imSign im => exact readComplex?_spelled sign imSign h.1 h.2
  | imaginary sign magnitude => exact readImaginary?_spelled sign h

theorem shape_of_read? {s : Shape} {lexeme : List Char} {n : Numeral}
    (h : s.read? lexeme = some n) : n.shape = s := by
  cases s with
  | real =>
      obtain ⟨_, -, h⟩ := Option.bind_eq_some_iff.1 h
      dsimp only at h
      split_ifs at h
      cases h
      rfl
  | rational =>
      obtain ⟨_, -, h⟩ := Option.bind_eq_some_iff.1 h
      dsimp only at h
      split_ifs at h
      cases h
      rfl
  | complex =>
      obtain ⟨_, -, h⟩ := Option.bind_eq_some_iff.1 h
      obtain ⟨_, -, h⟩ := Option.bind_eq_some_iff.1 h
      obtain ⟨_, -, h⟩ := Option.bind_eq_some_iff.1 h
      dsimp only at h
      split_ifs at h
      cases h
      rfl
  | imaginary =>
      obtain ⟨_, -, h⟩ := Option.bind_eq_some_iff.1 h
      dsimp only at h
      split_ifs at h
      · cases h
        rfl
      · obtain ⟨_, -, h⟩ := Option.bind_eq_some_iff.1 h
        split_ifs at h
        cases h
        rfl

/-- Reading a lexeme gives the one numeral of the shape that is spelled so. -/
theorem shape_read?_eq_some_iff {s : Shape} {lexeme : List Char} {n : Numeral} :
    s.read? lexeme = some n ↔ n.shape = s ∧ n.Valid ∧ lexeme = n.spelled := by
  constructor
  · intro h
    obtain ⟨hspelled, hvalid⟩ := eq_of_shape_read? h
    exact ⟨shape_of_read? h, hvalid, hspelled⟩
  · rintro ⟨rfl, hvalid, rfl⟩
    exact hvalid.read?_spelled

theorem shape_accepts_iff {s : Shape} {lexeme : List Char} :
    s.accepts lexeme = true ↔ ∃ n : Numeral, n.shape = s ∧ n.Valid ∧ lexeme = n.spelled := by
  rw [Shape.accepts, Option.isSome_iff_exists]
  exact exists_congr fun _ => shape_read?_eq_some_iff

/-! ## The four forms -/

theorem real_accepts_iff {lexeme : List Char} :
    Shape.real.accepts lexeme = true ↔
      ∃ (sign : Option Sign) (value : Decimals), value.Valid ∧
        lexeme = Sign.spelled sign ++ value.spelled := by
  rw [shape_accepts_iff]
  constructor
  · rintro ⟨n, hshape, hvalid, hspelled⟩
    cases n with
    | real sign value => exact ⟨sign, value, hvalid, hspelled⟩
    | rational | complex | imaginary => cases hshape
  · rintro ⟨sign, value, hvalid, hspelled⟩
    exact ⟨real sign value, rfl, hvalid, hspelled⟩

theorem rational_accepts_iff {lexeme : List Char} :
    Shape.rational.accepts lexeme = true ↔
      ∃ (sign : Option Sign) (numerator denominator : Decimals),
        numerator.Valid ∧ denominator.Valid ∧
        lexeme = Sign.spelled sign ++ (numerator.spelled ++ '/' :: denominator.spelled) := by
  rw [shape_accepts_iff]
  constructor
  · rintro ⟨n, hshape, hvalid, hspelled⟩
    cases n with
    | rational sign numerator denominator =>
        exact ⟨sign, numerator, denominator, hvalid.1, hvalid.2, hspelled⟩
    | real | complex | imaginary => cases hshape
  · rintro ⟨sign, numerator, denominator, hnumerator, hdenominator, hspelled⟩
    exact ⟨rational sign numerator denominator, rfl, ⟨hnumerator, hdenominator⟩, hspelled⟩

theorem complex_accepts_iff {lexeme : List Char} :
    Shape.complex.accepts lexeme = true ↔
      ∃ (sign : Option Sign) (re : Magnitude) (imSign : Sign) (im : Magnitude),
        re.Valid ∧ im.Valid ∧
        lexeme = Sign.spelled sign ++ re.spelled ++ imSign.char :: (im.spelled ++ ['i']) := by
  rw [shape_accepts_iff]
  constructor
  · rintro ⟨n, hshape, hvalid, hspelled⟩
    cases n with
    | complex sign re imSign im => exact ⟨sign, re, imSign, im, hvalid.1, hvalid.2, hspelled⟩
    | real | rational | imaginary => cases hshape
  · rintro ⟨sign, re, imSign, im, hre, him, hspelled⟩
    exact ⟨complex sign re imSign im, rfl, ⟨hre, him⟩, hspelled⟩

theorem imaginary_accepts_iff {lexeme : List Char} :
    Shape.imaginary.accepts lexeme = true ↔
      ∃ (sign : Sign) (magnitude : Option Magnitude), (∀ m ∈ magnitude, m.Valid) ∧
        lexeme = sign.char :: ((magnitude.map Magnitude.spelled).getD [] ++ ['i']) := by
  have hspell : ∀ (sign : Sign) (magnitude : Option Magnitude),
      (imaginary sign magnitude).spelled =
        sign.char :: ((magnitude.map Magnitude.spelled).getD [] ++ ['i']) := by
    intro sign magnitude
    cases magnitude <;> rfl
  rw [shape_accepts_iff]
  constructor
  · rintro ⟨n, hshape, hvalid, hspelled⟩
    cases n with
    | imaginary sign magnitude =>
        exact ⟨sign, magnitude, hvalid, hspelled.trans (hspell sign magnitude)⟩
    | real | rational | complex => cases hshape
  · rintro ⟨sign, magnitude, hvalid, hspelled⟩
    exact ⟨imaginary sign magnitude, rfl, hvalid, hspelled.trans (hspell sign magnitude).symm⟩

theorem accepts_iff_exists_shape {lexeme : List Char} :
    accepts lexeme = true ↔ ∃ s : Shape, s.accepts lexeme = true := by
  rw [accepts, List.any_eq_true]
  exact ⟨fun ⟨s, _, hs⟩ => ⟨s, hs⟩, fun ⟨s, hs⟩ => ⟨s, s.mem_all, hs⟩⟩

/-! ## The shape can be told from the spelling -/

/-- The shape of a numeral, told from its first magnitude and the text after it. -/
def shapeByLead : Option (Magnitude × List Char) → Shape
  | none => .imaginary
  | some (.real _, []) => .real
  | some (.ratio _ _, []) => .rational
  | some (_, c :: _) => if c = 'i' then .imaginary else .complex

theorem Valid.shapeByLead_spelled {n : Numeral} (h : n.Valid) :
    shapeByLead (Magnitude.read? (Sign.readOptional n.spelled).2) = n.shape := by
  cases n with
  | real sign value =>
      have hvalue : (Magnitude.real value).Valid := h
      have hsign : Sign.readOptional (real sign value).spelled =
          (sign, (Magnitude.real value).spelled) :=
        Sign.readOptional_spelled sign hvalue.beginsWithDigit
      have hread := hvalue.read?_append (stops_nil _)
      rw [List.append_nil] at hread
      rw [hsign, hread]
      rfl
  | rational sign numerator denominator =>
      have hratio : (Magnitude.ratio numerator denominator).Valid := h
      have hsign := Sign.readOptional_spelled sign hratio.beginsWithDigit
      have hread := hratio.read?_append (stops_nil _)
      rw [List.append_nil] at hread
      rw [spelled, hsign, hread]
      rfl
  | complex sign re imSign im =>
      have hbegins := h.1.beginsWithDigit.append (imSign.char :: (im.spelled ++ ['i']))
      have hsign := Sign.readOptional_spelled sign hbegins
      have hread := h.1.read?_append (stops_sign imSign (im.spelled ++ ['i']))
      rw [spelled, List.append_assoc, hsign, hread]
      cases imSign <;> cases re <;> rfl
  | imaginary sign magnitude =>
      cases magnitude with
      | none => cases sign <;> rfl
      | some m =>
          have hm := h m rfl
          have hsign : Sign.readOptional (imaginary sign (some m)).spelled =
              (some sign, m.spelled ++ ['i']) :=
            Sign.readOptional_spelled (some sign) (hm.beginsWithDigit.append ['i'])
          have hread := hm.read?_append stops_unit
          rw [hsign, hread]
          cases m <;> rfl

/-- A text is the spelling of at most one numeral. -/
theorem Valid.eq_of_spelled_eq {n m : Numeral} (hn : n.Valid) (hm : m.Valid)
    (h : n.spelled = m.spelled) : n = m := by
  have hshape : n.shape = m.shape := by
    rw [← hn.shapeByLead_spelled, ← hm.shapeByLead_spelled, h]
  have hread := hn.read?_spelled
  rw [hshape, h, hm.read?_spelled] at hread
  exact (Option.some.inj hread).symm

/-- No lexeme has two shapes. -/
theorem eq_of_shape_accepts {s t : Shape} {lexeme : List Char} (hs : s.accepts lexeme = true)
    (ht : t.accepts lexeme = true) : s = t := by
  obtain ⟨n, rfl, hn, hspelled⟩ := shape_accepts_iff.1 hs
  obtain ⟨m, rfl, hm, hspelled'⟩ := shape_accepts_iff.1 ht
  rw [hn.eq_of_spelled_eq hm (hspelled.symm.trans hspelled')]

/-- Each shape accepts exactly the texts of its form, a lexeme is a numeral if it has one of the
four forms, no lexeme has two of them, and its division into signs, magnitudes, decimals and
their digits, which reading gives, is unique. -/
theorem shapes_accept_exactly (x : String) :
    (Shape.real.accepts x.toList = true ↔
      ∃ (sign : Option Sign) (value : Decimals), value.Valid ∧
        x.toList = Sign.spelled sign ++ value.spelled) ∧
    (Shape.rational.accepts x.toList = true ↔
      ∃ (sign : Option Sign) (numerator denominator : Decimals),
        numerator.Valid ∧ denominator.Valid ∧
        x.toList = Sign.spelled sign ++ (numerator.spelled ++ '/' :: denominator.spelled)) ∧
    (Shape.complex.accepts x.toList = true ↔
      ∃ (sign : Option Sign) (re : Magnitude) (imSign : Sign) (im : Magnitude),
        re.Valid ∧ im.Valid ∧
        x.toList = Sign.spelled sign ++ re.spelled ++ imSign.char :: (im.spelled ++ ['i'])) ∧
    (Shape.imaginary.accepts x.toList = true ↔
      ∃ (sign : Sign) (magnitude : Option Magnitude), (∀ m ∈ magnitude, m.Valid) ∧
        x.toList = sign.char :: ((magnitude.map Magnitude.spelled).getD [] ++ ['i'])) ∧
    (accepts x.toList = true ↔ ∃ s : Shape, s.accepts x.toList = true) ∧
    (∀ s t : Shape, s.accepts x.toList = true → t.accepts x.toList = true → s = t) ∧
    (∀ n m : Numeral, n.Valid → m.Valid → x.toList = n.spelled → x.toList = m.spelled → n = m) ∧
    ∀ (s : Shape) (n : Numeral),
      s.read? x.toList = some n ↔ n.shape = s ∧ n.Valid ∧ x.toList = n.spelled := by
  refine ⟨real_accepts_iff, rational_accepts_iff, complex_accepts_iff, imaginary_accepts_iff,
    accepts_iff_exists_shape, ?_, ?_, ?_⟩
  · intro s t hs ht
    exact eq_of_shape_accepts hs ht
  · intro n m hn hm hx hx'
    exact hn.eq_of_spelled_eq hm (hx.symm.trans hx')
  · intro s n
    exact shape_read?_eq_some_iff

theorem shapes_accept_exactly_mixed :
    (∀ s : Shape, s.accepts "-1/2+3.25i".toList = true → s = .complex) ∧
      ∀ n : Numeral, n.Valid → "-1/2+3.25i".toList = n.spelled →
        n = complex (some .minus) (.ratio ⟨['1'], none⟩ ⟨['2'], none⟩) .plus
          (.real ⟨['3'], some ['2', '5']⟩) := by
  obtain ⟨-, -, -, -, -, honly, hunique, hread⟩ := shapes_accept_exactly "-1/2+3.25i"
  have hcomplex : Shape.complex.read? "-1/2+3.25i".toList =
      some (complex (some .minus) (.ratio ⟨['1'], none⟩ ⟨['2'], none⟩) .plus
        (.real ⟨['3'], some ['2', '5']⟩)) := by decide
  obtain ⟨-, hvalid, hspelled⟩ := (hread _ _).1 hcomplex
  exact ⟨fun s hs => honly s .complex hs (by decide),
    fun n hn hx => hunique _ _ hn hvalid hx hspelled⟩

end Numeral

end SchemeLexer
