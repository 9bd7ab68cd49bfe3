import Mathlib.Data.List.Chain
import Mathlib.Tactic.SplitIfs
import SchemeLexer.Json.Layout
import SchemeLexer.Json.Scalar
/-!
# Written strings read back

A string is written code point by code point: a character as it stands or after a backslash, or else
as its units of 16 bits, each by its number. Reading keeps such units back until a character or the
closing quote comes, and joins them then. There a pair of surrogates becomes one character, so that a
text is read back if it holds no such pair. Since a numeric escape is read only if something follows
it, each statement about a part of a string asks for more text after that part.
-/

namespace SchemeLexer

namespace Text

/-! ## Units -/

/-- The code points of characters leave out the surrogates. -/
theorem toNat_cases (c : Char) :
    c.toNat < 0xd800 ∨ 0xe000 ≤ c.toNat ∧ c.toNat < 0x110000 := by
  have hvalid := c.valid
  simp only [UInt32.isValidChar, Nat.isValidChar] at hvalid
  simp only [Char.toNat]
  omega

theorem lt_of_mem_unitsOf {c : Char} {u : Nat} (h : u ∈ unitsOf c) : u < 0x10000 := by
  have hc := toNat_cases c
  simp only [unitsOf] at h
  split at h
  · simp only [List.mem_singleton] at h
    omega
  · simp only [List.mem_cons, List.not_mem_nil, or_false] at h
    omega

/-- A unit that is no high surrogate does not look at what follows it. -/
theorem ofUnits_cons {u : Nat} (h : isHighSurrogate u = false) (rest : List Nat) :
    ofUnits (u :: rest) = ofUnit u :: ofUnits rest := by
  cases rest with
  | nil => rfl
  | cons v rest => simp [ofUnits, h]

theorem ofUnits_unitsOf_append (c : Char) (rest : List Nat) :
    ofUnits (unitsOf c ++ rest) = .char c :: ofUnits rest := by
  have hc := toNat_cases c
  by_cases hsingle : c.toNat < 0x10000
  · have hhigh : isHighSurrogate c.toNat = false := by
      simp only [isHighSurrogate, Bool.and_eq_false_iff, decide_eq_false_iff_not]
      omega
    have hlow : isLowSurrogate c.toNat = false := by
      simp only [isLowSurrogate, Bool.and_eq_false_iff, decide_eq_false_iff_not]
      omega
    have hunits : unitsOf c = [c.toNat] := by simp [unitsOf, hsingle]
    have hunit : ofUnit c.toNat = .char c := by simp [ofUnit, hhigh, hlow]
    rw [hunits, List.singleton_append, ofUnits_cons hhigh, hunit]
  · -- The distance from U+10000 has twenty bits, ten for each of the two surrogates.
    obtain ⟨n, hn⟩ : ∃ n, c.toNat = 0x10000 + n := ⟨c.toNat - 0x10000, by omega⟩
    have hunits : unitsOf c = [0xd800 + n / 0x400, 0xdc00 + n % 0x400] := by
      simp [unitsOf, hn]
    have hhigh : isHighSurrogate (0xd800 + n / 0x400) = true := by
      simp only [isHighSurrogate, Bool.and_eq_true, decide_eq_true_eq]
      omega
    have hlow : isLowSurrogate (0xdc00 + n % 0x400) = true := by
      simp only [isLowSurrogate, Bool.and_eq_true, decide_eq_true_eq]
      omega
    have hpair : ofPair (0xd800 + n / 0x400) (0xdc00 + n % 0x400) = c := by
      have hcode : 0x10000 + (0xd800 + n / 0x400 - 0xd800) * 0x400 +
          (0xdc00 + n % 0x400 - 0xdc00) = c.toNat := by omega
      rw [ofPair, hcode, Char.ofNat_toNat]
    rw [hunits]
    simp [ofUnits, hhigh, hlow, hpair]

theorem toNat_ofNat {n : Nat} (h : n.isValidChar) : (Char.ofNat n).toNat = n := by
  rw [Char.ofNat, dif_pos h]
  rfl

theorem ofUnit_of_surrogate {u : Nat} (h : isHighSurrogate u || isLowSurrogate u) :
    ofUnit u = .surrogate u h := by
  rw [ofUnit, dif_pos h]

theorem ofUnits_surrogate {u : Nat} (h : isHighSurrogate u || isLowSurrogate u) {rest : List Nat}
    (hrest : ∀ v ∈ rest.head?, ¬(isHighSurrogate u = true ∧ isLowSurrogate v = true)) :
    ofUnits (u :: rest) = .surrogate u h :: ofUnits rest := by
  cases rest with
  | nil => exact congrArg (fun p => [p]) (ofUnit_of_surrogate h)
  | cons v rest =>
      have hpair : ¬(isHighSurrogate u && isLowSurrogate v) = true := by
        simpa using hrest v rfl
      rw [ofUnits, if_neg hpair, ofUnit_of_surrogate h]

/-- A surrogate is never read as a character with a lower code point. -/
theorem exists_ofUnits_eq_cons {u : Nat} (hu : isHighSurrogate u || isLowSurrogate u)
    (rest : List Nat) :
    ∃ p tail, ofUnits (u :: rest) = p :: tail ∧ ∀ c, p = .char c → 0xd800 ≤ c.toNat := by
  by_cases hrest : ∀ v ∈ rest.head?, ¬(isHighSurrogate u = true ∧ isLowSurrogate v = true)
  · exact ⟨_, _, ofUnits_surrogate hu hrest, fun c hc => nomatch hc⟩
  · cases rest with
    | nil => exact absurd (by simp) hrest
    | cons v rest =>
        have hpair : (isHighSurrogate u && isLowSurrogate v) = true := by simpa using hrest
        refine ⟨_, _, by rw [ofUnits, if_pos hpair], ?_⟩
        intro c hc
        obtain rfl := CodePoint.char.inj hc
        simp only [isHighSurrogate, isLowSurrogate, Bool.and_eq_true, decide_eq_true_eq] at hpair
        rw [ofPair, toNat_ofNat (Or.inr (by omega))]
        omega

/-- The units of a character do not begin with a low surrogate. -/
theorem exists_unitsOf_eq_cons (c : Char) :
    ∃ u rest, unitsOf c = u :: rest ∧ isLowSurrogate u = false := by
  have hc := toNat_cases c
  by_cases hsingle : c.toNat < 0x10000
  · refine ⟨c.toNat, [], by simp [unitsOf, hsingle], ?_⟩
    simp only [isLowSurrogate, Bool.and_eq_false_iff, decide_eq_false_iff_not]
    omega
  · refine ⟨0xd800 + (c.toNat - 0x10000) / 0x400, [0xdc00 + (c.toNat - 0x10000) % 0x400],
      by simp [unitsOf, hsingle], ?_⟩
    simp only [isLowSurrogate, Bool.and_eq_false_iff, decide_eq_false_iff_not]
    omega

/-- A character joins neither with the units before it nor with those after it. -/
theorem ofUnits_append_unitsOf (units : List Nat) (c : Char) (rest : List Nat) :
    ofUnits (units ++ (unitsOf c ++ rest)) = ofUnits units ++ .char c :: ofUnits rest := by
  induction units using ofUnits.induct with
  | case1 => exact ofUnits_unitsOf_append c rest
  | case2 u =>
      obtain ⟨v, tail, hunits, hlow⟩ := exists_unitsOf_eq_cons c
      have hc := ofUnits_unitsOf_append c rest
      rw [List.singleton_append]
      rw [hunits, List.cons_append] at hc ⊢
      rw [ofUnits, ofUnits, hlow, Bool.and_false, if_neg Bool.false_ne_true, hc]
      rfl
  | case3 u v units hpair ih =>
      rw [List.cons_append, List.cons_append, ofUnits, ofUnits, if_pos hpair, if_pos hpair, ih]
      rfl
  | case4 u v units hpair ih =>
      rw [List.cons_append, List.cons_append, ofUnits, ofUnits, if_neg hpair, if_neg hpair,
        ← List.cons_append, ih]
      rfl

end Text

/-! ## Code points -/

namespace CodePoint

def units : CodePoint → List Nat
  | .char c => Text.unitsOf c
  | .surrogate unit _ => [unit]

def isHigh : CodePoint → Bool
  | .char _ => false
  | .surrogate unit _ => Text.isHighSurrogate unit

def isLow : CodePoint → Bool
  | .char _ => false
  | .surrogate unit _ => Text.isLowSurrogate unit

def ofString (s : String) : List CodePoint :=
  s.toList.map .char

/-- The text as which code points are read. -/
def joined (points : List CodePoint) : Text :=
  .ofPoints (Text.ofUnits (points.flatMap units))

theorem isLow_of_head? {p : CodePoint} {points : List CodePoint} {v : Nat}
    (h : ((p :: points).flatMap units).head? = some v) (hlow : Text.isLowSurrogate v = true) :
    p.isLow = true := by
  rw [List.flatMap_cons] at h
  cases p with
  | surrogate unit hunit =>
      cases h
      exact hlow
  | char c =>
      obtain ⟨u, rest, hunits, hu⟩ := Text.exists_unitsOf_eq_cons c
      rw [units, hunits] at h
      cases h
      rw [hu] at hlow
      cases hlow

/-- Units are joined to the code points that they are the units of, unless a pair of surrogates
among these is taken for a character. -/
theorem ofUnits_flatMap_units {points : List CodePoint}
    (h : points.IsChain fun p q => ¬(p.isHigh = true ∧ q.isLow = true)) :
    Text.ofUnits (points.flatMap units) = points := by
  induction points with
  | nil => rfl
  | cons p points ih =>
      obtain ⟨hp, hpoints⟩ := List.isChain_cons.1 h
      cases p with
      | char c => rw [List.flatMap_cons, units, Text.ofUnits_unitsOf_append, ih hpoints]
      | surrogate unit hunit =>
          have hrest : ∀ v ∈ (points.flatMap units).head?,
              ¬(Text.isHighSurrogate unit = true ∧ Text.isLowSurrogate v = true) := by
            rintro v hv ⟨hhigh, hlow⟩
            cases points with
            | nil => cases hv
            | cons q points => exact hp q rfl ⟨hhigh, isLow_of_head? hv hlow⟩
          rw [List.flatMap_cons, units, List.singleton_append, Text.ofUnits_surrogate hunit hrest,
            ih hpoints]

end CodePoint

/-- In which no high surrogate stands right before a low one. -/
def Text.Unpaired (s : Text) : Prop :=
  s.points.IsChain fun p q => ¬(p.isHigh = true ∧ q.isLow = true)

instance : DecidablePred Text.Unpaired := fun _ => inferInstanceAs (Decidable (List.IsChain _ _))

theorem Text.unpaired_plain (s : String) : (Text.plain s).Unpaired := by
  apply List.Pairwise.isChain
  rw [Text.points, List.pairwise_map]
  exact List.pairwise_of_forall fun _ _ h => Bool.false_ne_true h.1

namespace CodePoint

theorem joined_points {s : Text} (h : s.Unpaired) : joined s.points = s := by
  rw [joined, ofUnits_flatMap_units h, Text.ofPoints_points]

theorem joined_ofString (s : String) : joined (ofString s) = .plain s :=
  joined_points (Text.unpaired_plain s)

theorem eq_map_char_of_ofUnits {points : List CodePoint} {text : List Char}
    (htext : ∀ c ∈ text, c.toNat < 0xd800)
    (h : Text.ofUnits (points.flatMap units) = text.map .char) : points = text.map .char := by
  induction points generalizing text with
  | nil => exact h
  | cons p points ih =>
      rw [List.flatMap_cons] at h
      cases p with
      | char c =>
          rw [units, Text.ofUnits_unitsOf_append] at h
          obtain ⟨d, rest, rfl, hd, hrest⟩ := List.map_eq_cons_iff.1 h.symm
          rw [List.map_cons, hd, ih (fun e he => htext e (List.mem_cons_of_mem _ he)) hrest.symm]
      | surrogate unit hunit =>
          obtain ⟨q, tail, hcons, hq⟩ :=
            Text.exists_ofUnits_eq_cons hunit (points.flatMap units)
          rw [units, List.singleton_append, hcons] at h
          obtain ⟨d, rest, rfl, hd, -⟩ := List.map_eq_cons_iff.1 h.symm
          exact absurd (htext d List.mem_cons_self) (Nat.not_lt.2 (hq d hd.symm))

/-- A text without characters behind the surrogates is read for its own code points only. -/
theorem eq_ofString_of_joined {points : List CodePoint} {s : String}
    (hs : ∀ c ∈ s.toList, c.toNat < 0xd800) (h : joined points = s) : points = ofString s := by
  apply eq_map_char_of_ofUnits hs
  rw [← Text.points_ofPoints (Text.ofUnits _), ← joined, h, Text.points]

end CodePoint

namespace Json

/-! ## Escapes -/

theorem hexDigit?_hexChar : ∀ d < 16, hexDigit? (Text.hexChar d) = some d := by
  decide

theorem hex_four (n : Nat) :
    Text.hex 4 n =
      [Text.hexChar (n / 0x1000 % 16), Text.hexChar (n / 0x100 % 16),
        Text.hexChar (n / 0x10 % 16), Text.hexChar (n % 16)] := by
  simp [Text.hex, Nat.div_div_eq_div_mul]

/-- The four digits of a unit denote it. -/
theorem hexUnit?_hexChar {n : Nat} (h : n < 0x10000) :
    hexUnit? (Text.hexChar (n / 0x1000 % 16)) (Text.hexChar (n / 0x100 % 16))
        (Text.hexChar (n / 0x10 % 16)) (Text.hexChar (n % 16)) = some n := by
  have hdigit (m : Nat) : hexDigit? (Text.hexChar (m % 16)) = some (m % 16) :=
    hexDigit?_hexChar _ (Nat.mod_lt _ (by decide))
  have hvalue : n / 0x1000 % 16 * 0x1000 + n / 0x100 % 16 * 0x100 + n / 0x10 % 16 * 0x10 +
      n % 16 = n := by omega
  simp [hexUnit?, hdigit, hvalue]

variable (opening points : List CodePoint) (units : List Nat)

theorem readString_unitEscape {unit : Nat} (hunit : unit < 0x10000) {tail : List Char}
    (htail : tail ≠ []) :
    readString opening points units ((unitEscape unit ++ tail).map .char) =
      readString opening points (unit :: units) (tail.map .char) := by
  obtain ⟨next, rest, rfl⟩ := List.exists_cons_of_ne_nil htail
  simp [unitEscape, hex_four, readString, CodePoint.shown, hexUnit?_hexChar hunit]

theorem readString_unitEscapes {written : List Nat} (hwritten : ∀ unit ∈ written, unit < 0x10000)
    {tail : List Char} (htail : tail ≠ []) :
    readString opening points units ((written.flatMap unitEscape ++ tail).map .char) =
      readString opening points (written.reverse ++ units) (tail.map .char) := by
  induction written generalizing units with
  | nil => rfl
  | cons unit written ih =>
      have hunit : unit < 0x10000 := hwritten unit List.mem_cons_self
      have hmore : written.flatMap unitEscape ++ tail ≠ [] := by simp [htail]
      rw [List.flatMap_cons, List.append_assoc,
        readString_unitEscape opening points units hunit hmore,
        ih _ fun u hu => hwritten u (List.mem_cons_of_mem _ hu)]
      simp

/-- A character escaped by a backslash and a letter other than `u`. -/
theorem readString_escape {letter c : Char} (hletter : letter ≠ 'u')
    (hc : escape? letter = some c) (tail : List CodePoint) :
    readString opening points units (.char '\\' :: .char letter :: tail) =
      readString opening (.char c :: settled points units) [] tail := by
  rw [readString, CodePoint.shown, hc]
  · exact fun _ _ _ _ _ _ hu _ => hletter (CodePoint.char.inj hu)
  · exact fun hu => hletter (CodePoint.char.inj hu)

theorem readString_plain {c : Char} (hquote : c ≠ '"') (hslash : c ≠ '\\')
    (hprintable : 0x20 ≤ c.toNat) (tail : List CodePoint) :
    readString opening points units (.char c :: tail) =
      readString opening (.char c :: settled points units) [] tail := by
  have hcontrol : ¬c.toNat < 0x20 := by omega
  rw [readString, CodePoint.shown, if_neg hcontrol]
  · exact fun h => hquote (CodePoint.char.inj h)
  · exact fun _ _ _ _ _ _ h _ => hslash (CodePoint.char.inj h)
  · exact fun _ h _ => hslash (CodePoint.char.inj h)
  · exact fun _ _ h _ => hslash (CodePoint.char.inj h)
  · exact fun h _ => hslash (CodePoint.char.inj h)

/-! ## Strings -/

def PlainAscii (c : Char) : Prop := 0x20 ≤ c.toNat ∧ c.toNat ≤ 0x7e

instance : DecidablePred PlainAscii := fun _ => inferInstanceAs (Decidable (_ ∧ _))

/-- The three ways in which a character is written. -/
theorem writtenChar_cases (c : Char) :
    (∃ letter, letter ≠ 'u' ∧ escape? letter = some c ∧ PlainAscii letter ∧
      writtenChar c = ['\\', letter]) ∨
    (c ≠ '"' ∧ c ≠ '\\' ∧ PlainAscii c ∧ writtenChar c = [c]) ∨
    writtenChar c = (Text.unitsOf c).flatMap unitEscape := by
  unfold writtenChar
  split_ifs with hself hline hreturn htab hfeed hback hplain
  · left
    simp only [Bool.or_eq_true, decide_eq_true_eq] at hself
    rcases hself with rfl | rfl
    · exact ⟨'"', by decide⟩
    · exact ⟨'\\', by decide⟩
  · subst hline
    exact Or.inl ⟨'n', by decide⟩
  · subst hreturn
    exact Or.inl ⟨'r', by decide⟩
  · subst htab
    exact Or.inl ⟨'t', by decide⟩
  · subst hfeed
    exact Or.inl ⟨'f', by decide⟩
  · subst hback
    exact Or.inl ⟨'b', by decide⟩
  · simp only [Bool.or_eq_true, decide_eq_true_eq, not_or] at hself
    simp only [Bool.and_eq_true, decide_eq_true_eq] at hplain
    have hascii : PlainAscii c := ⟨hplain.1, by omega⟩
    exact Or.inr (Or.inl ⟨hself.1, hself.2, hascii, rfl⟩)
  · exact Or.inr (Or.inr rfl)

/-- A written character is read as such or as its units. -/
theorem readString_writtenChar (c : Char) {tail : List Char} (htail : tail ≠ []) :
    readString opening points units ((writtenChar c ++ tail).map .char) =
        readString opening (.char c :: settled points units) [] (tail.map .char) ∨
      readString opening points units ((writtenChar c ++ tail).map .char) =
        readString opening points ((Text.unitsOf c).reverse ++ units) (tail.map .char) := by
  rcases writtenChar_cases c with
    ⟨letter, hletter, hescape, -, hwritten⟩ | ⟨hquote, hslash, hascii, hwritten⟩ | hwritten
  · rw [hwritten]
    exact Or.inl (readString_escape opening points units hletter hescape _)
  · rw [hwritten]
    exact Or.inl (readString_plain opening points units hquote hslash hascii.1 _)
  · rw [hwritten]
    right
    exact readString_unitEscapes opening points units (fun _ => Text.lt_of_mem_unitsOf) htail

/-! ## Written code points -/

/-- Written code points are read up to the closing quote, after what was read before them. The
last of the units before them may join with the first of their own. -/
theorem readString_flatMap (written : List CodePoint) (rest : List Char) :
    readString opening points units ((written.flatMap writtenPoint ++ '"' :: rest).map .char) =
      .ok (.ofPoints (points.reverse ++
        Text.ofUnits (units.reverse ++ written.flatMap CodePoint.units)), rest.map .char) := by
  induction written generalizing points units with
  | nil => simp [readString, settled]
  | cons p written ih =>
      have hmore : written.flatMap writtenPoint ++ '"' :: rest ≠ [] := by simp
      rw [List.flatMap_cons, List.append_assoc, List.flatMap_cons]
      cases p with
      | char c =>
          rcases readString_writtenChar opening points units c hmore with hread | hread
          · rw [writtenPoint, hread, ih, CodePoint.units, Text.ofUnits_append_unitsOf]
            simp [settled]
          · rw [writtenPoint, hread, ih]
            simp [CodePoint.units]
      | surrogate unit h =>
          have hunit : unit < 0x10000 := by
            simp only [Text.isHighSurrogate, Text.isLowSurrogate, Bool.or_eq_true,
              Bool.and_eq_true, decide_eq_true_eq] at h
            omega
          rw [writtenPoint, readString_unitEscape opening points units hunit hmore, ih]
          simp [CodePoint.units]

theorem readString_points (written : List CodePoint) (rest : List Char) :
    readString opening [] [] ((written.flatMap writtenPoint ++ '"' :: rest).map .char) =
      .ok (CodePoint.joined written, rest.map .char) :=
  readString_flatMap opening [] [] written rest

/-! ## The characters of written strings -/

theorem plainAscii_hexChar : ∀ d < 16, PlainAscii (Text.hexChar d) := by
  decide

theorem plainAscii_unitEscape {unit : Nat} {c : Char} (h : c ∈ unitEscape unit) :
    PlainAscii c := by
  have hdigit (n : Nat) : PlainAscii (Text.hexChar (n % 16)) :=
    plainAscii_hexChar _ (Nat.mod_lt _ (by decide))
  rw [unitEscape, hex_four] at h
  simp only [List.mem_cons, List.not_mem_nil, or_false] at h
  rcases h with rfl | rfl | rfl | rfl | rfl | rfl
  · decide
  · decide
  all_goals exact hdigit _

theorem plainAscii_writtenChar {c written : Char} (h : written ∈ writtenChar c) :
    PlainAscii written := by
  rcases writtenChar_cases c with
    ⟨letter, -, -, hletter, hwritten⟩ | ⟨-, -, hascii, hwritten⟩ | hwritten
  · rw [hwritten] at h
    simp only [List.mem_cons, List.not_mem_nil, or_false] at h
    rcases h with rfl | rfl
    · decide
    · exact hletter
  · rw [hwritten, List.mem_singleton] at h
    exact h ▸ hascii
  · rw [hwritten, List.mem_flatMap] at h
    obtain ⟨unit, -, hunit⟩ := h
    exact plainAscii_unitEscape hunit

theorem plainAscii_writtenPoint {p : CodePoint} {written : Char} (h : written ∈ writtenPoint p) :
    PlainAscii written := by
  cases p with
  | char c => exact plainAscii_writtenChar h
  | surrogate unit _ => exact plainAscii_unitEscape h

theorem plainAscii_writtenText {s : Text} {written : Char} (h : written ∈ writtenText s) :
    PlainAscii written := by
  simp only [writtenText, writtenPoints, List.cons_append, List.mem_cons, List.mem_append,
    List.mem_flatMap, List.not_mem_nil, or_false] at h
  rcases h with rfl | ⟨p, -, hp⟩ | rfl
  · decide
  · exact plainAscii_writtenPoint hp
  · decide

end Json

end SchemeLexer
