import Mathlib.Data.List.Basic
import Mathlib.Tactic.FinCases
import SchemeLexer.Proofs.Classification
import SchemeLexer.Proofs.Numeral.Spelling
/-!
# Where the order of the rules matters

The order of the rules decides for three lexemes only. Every other lexeme is recognised by at most
one rule, and which one that could be can be told from the table of delimiters and the first two
characters (`Rule.candidate`). So six lemmas, one for each rule, take the place of a comparison of
each rule with each other one.
-/

namespace SchemeLexer

namespace Rule

def Recognises (r : Rule) (lexeme : List Char) : Prop :=
  (r.kind? lexeme).isSome = true

instance (r : Rule) : DecidablePred r.Recognises := fun _ => inferInstanceAs (Decidable (_ = _))

/-- The only rule but that of delimiters which the first two characters of a lexeme allow. -/
def byFirstCharacters : List Char → Rule
  | [] => .identifier
  | c :: rest =>
      if c = '#' then if rest.head? = some '\\' then .character else .boolean
      else if c = '"' then .string
      else if Charset.isDigit c || Charset.isExplicitSign c && rest.head?.any Charset.isDigit then
        .number
      else .identifier

/-- The only rule that can recognise a lexeme, unless the order of the rules decides for it. -/
def candidate (lexeme : List Char) : Rule :=
  if (delimiters.lookup lexeme).isSome then .delimiter else byFirstCharacters lexeme

/-- The lexemes for which the order of the rules decides: they are identifiers, but also a
delimiter or numerals. -/
def contested : List (List Char) := [['.'], ['+', 'i'], ['-', 'i']]

end Rule

/-! ## First characters -/

theorem isDigit_eq_false_of_isInitial {c : Char} (h : Charset.isInitial c = true) :
    Charset.isDigit c = false := by
  simp only [Charset.isInitial, Bool.or_eq_true] at h
  rcases h with hletter | hspecial
  · simp only [Charset.isLetter, Bool.or_eq_true, Bool.and_eq_true, decide_eq_true_eq,
      Char.le_def, UInt32.le_iff_toNat_le] at hletter
    simp only [Charset.isDigit, Bool.and_eq_false_iff, decide_eq_false_iff_not, Char.le_def,
      UInt32.le_iff_toNat_le]
    have ha : 'a'.val.toNat = 97 := rfl
    have hA : 'A'.val.toNat = 65 := rfl
    have h9 : '9'.val.toNat = 57 := rfl
    omega
  · simp only [Charset.isSpecialInitial, decide_eq_true_eq] at hspecial
    fin_cases hspecial <;> rfl

theorem isDigit_eq_false_of_isSignSubsequent {c : Char}
    (h : Charset.isSignSubsequent c = true) : Charset.isDigit c = false := by
  simp only [Charset.isSignSubsequent, Charset.isExplicitSign, Bool.or_eq_true,
    decide_eq_true_eq] at h
  rcases h with (hinitial | rfl | rfl) | rfl
  · exact isDigit_eq_false_of_isInitial hinitial
  all_goals rfl

namespace Rule

theorem lookup_delimiters_eq_none {lexeme : List Char}
    (h : lexeme ∉ delimiters.map Prod.fst) : delimiters.lookup lexeme = none := by
  cases hlookup : delimiters.lookup lexeme with
  | none => rfl
  | some kind =>
      have hmem := List.mem_map_of_mem (f := Prod.fst) (mem_delimiters_of_lookup hlookup)
      exact absurd hmem h

theorem candidate_of_not_mem {lexeme : List Char} (h : lexeme ∉ delimiters.map Prod.fst) :
    candidate lexeme = byFirstCharacters lexeme := by
  rw [candidate, lookup_delimiters_eq_none h]
  rfl

/-- The first characters of the lexemes that are neither numerals nor identifiers, and the dot. -/
def marks : List Char := ['#', '\'', '(', ')', '.', '|', '"']

theorem candidate_of_not_mem_marks {c : Char} (rest : List Char) (h : c ∉ marks) :
    candidate (c :: rest) =
      if Charset.isDigit c || Charset.isExplicitSign c && rest.head?.any Charset.isDigit then
        .number
      else .identifier := by
  simp only [marks, List.mem_cons, List.not_mem_nil, or_false, not_or] at h
  obtain ⟨hhash, hquotation, hopening, hclosing, hdot, hbar, hquote⟩ := h
  have hdelimiter : c :: rest ∉ delimiters.map Prod.fst := by
    simp [delimiters, hhash, hquotation, hopening, hclosing, hdot, hbar]
  rw [candidate_of_not_mem hdelimiter, byFirstCharacters, if_neg hhash, if_neg hquote]

theorem not_mem_marks {p : Char → Bool} {c : Char} (hmarks : marks.any p = false)
    (hc : p c = true) : c ∉ marks := by
  intro hmem
  rw [List.any_eq_false] at hmarks
  exact hmarks c hmem hc

theorem candidate_of_digit {c : Char} (rest : List Char) (h : Charset.isDigit c = true) :
    candidate (c :: rest) = .number := by
  have hc : c ∉ marks := not_mem_marks (by decide) h
  simp [candidate_of_not_mem_marks rest hc, h]

theorem candidate_of_sign {c : Char} (rest : List Char) (h : Charset.isExplicitSign c = true) :
    candidate (c :: rest) =
      if rest.head?.any Charset.isDigit then .number else .identifier := by
  have hsign : c = '+' ∨ c = '-' := by simpa [Charset.isExplicitSign] using h
  have hc : c ∉ marks := not_mem_marks (by decide) h
  have hdigit : Charset.isDigit c = false := by
    rcases hsign with rfl | rfl <;> rfl
  simp [candidate_of_not_mem_marks rest hc, hdigit, h]

theorem candidate_of_initial {c : Char} (rest : List Char) (h : Charset.isInitial c = true) :
    candidate (c :: rest) = .identifier := by
  have hc : c ∉ marks := not_mem_marks (by decide) h
  have hsign : Charset.isExplicitSign c = false := by
    rw [Bool.eq_false_iff]
    intro hsign
    simp only [Charset.isExplicitSign, Bool.or_eq_true, decide_eq_true_eq] at hsign
    rcases hsign with rfl | rfl <;> exact absurd h (by decide)
  simp [candidate_of_not_mem_marks rest hc, hsign, isDigit_eq_false_of_isInitial h]

theorem candidate_of_beginsWithDigit {text : List Char} (h : BeginsWithDigit text) :
    candidate text = .number := by
  obtain ⟨d, rest, rfl, hd⟩ := h
  exact candidate_of_digit rest hd

theorem candidate_of_sign_cons {text : List Char} (sign : Sign) (h : BeginsWithDigit text) :
    candidate (sign.char :: text) = .number := by
  obtain ⟨d, rest, rfl, hd⟩ := h
  have hsign : Charset.isExplicitSign sign.char = true := by cases sign <;> rfl
  rw [candidate_of_sign _ hsign]
  simp [hd]

/-! ## One lemma for each rule -/

theorem candidate_of_isBoolean {lexeme : List Char} (h : Literal.isBoolean lexeme = true) :
    candidate lexeme = .boolean := by
  simp only [Literal.isBoolean, decide_eq_true_eq] at h
  fin_cases h <;> rfl

theorem candidate_of_isCharacter {lexeme : List Char} (h : Literal.isCharacter lexeme = true) :
    candidate lexeme = .character := by
  unfold Literal.isCharacter at h
  split at h
  · next name =>
      have hdelimiter : '#' :: '\\' :: name ∉ delimiters.map Prod.fst := by simp [delimiters]
      rw [candidate_of_not_mem hdelimiter]
      rfl
  · cases h

theorem candidate_of_isString {lexeme : List Char} (h : Literal.isString lexeme = true) :
    candidate lexeme = .string := by
  unfold Literal.isString at h
  split at h
  · next rest =>
      have hdelimiter : '"' :: rest ∉ delimiters.map Prod.fst := by simp [delimiters]
      rw [candidate_of_not_mem hdelimiter]
      rfl
  · cases h

theorem candidate_of_numeral {lexeme : List Char} (h : Numeral.accepts lexeme = true)
    (hcontested : lexeme ∉ contested) : candidate lexeme = .number := by
  obtain ⟨n, rfl, hvalid⟩ := Numeral.exists_of_accepts h
  -- a signed or unsigned text that goes on with a digit
  have hsigned : ∀ (sign : Option Sign) {text : List Char}, BeginsWithDigit text →
      candidate (Sign.spelled sign ++ text) = .number := by
    intro sign text htext
    cases sign with
    | none => exact candidate_of_beginsWithDigit htext
    | some sign => exact candidate_of_sign_cons sign htext
  cases n with
  | real sign value => exact hsigned sign (Decimals.Valid.beginsWithDigit hvalid)
  | rational sign numerator denominator =>
      have hratio : (Magnitude.ratio numerator denominator).Valid := hvalid
      exact hsigned sign hratio.beginsWithDigit
  | complex sign re imSign im =>
      rw [Numeral.spelled, List.append_assoc]
      exact hsigned sign (hvalid.1.beginsWithDigit.append _)
  | imaginary sign magnitude =>
      cases magnitude with
      | none =>
          exfalso
          apply hcontested
          cases sign <;> decide
      | some m => exact candidate_of_sign_cons sign ((hvalid m rfl).beginsWithDigit.append _)

theorem candidate_of_identifier {lexeme : List Char} (h : Identifier.accepts lexeme = true)
    (hcontested : lexeme ∉ contested) : candidate lexeme = .identifier := by
  cases lexeme with
  | nil => cases h
  | cons c rest =>
      simp only [Identifier.accepts] at h
      split_ifs at h with hinitial hsign hdot
      · exact candidate_of_initial rest hinitial
      · rw [candidate_of_sign rest hsign]
        cases rest with
        | nil => rfl
        | cons d rest =>
            have hd : Charset.isDigit d = false := by
              simp only [Identifier.afterSign] at h
              split_ifs at h with hdot
              · rw [hdot]
                rfl
              · exact isDigit_eq_false_of_isSignSubsequent (Bool.and_eq_true_iff.1 h).1
            simp [hd]
      · subst hdot
        have hne : rest ≠ [] := by
          rintro rfl
          exact hcontested (by decide)
        have hdelimiter : '.' :: rest ∉ delimiters.map Prod.fst := by simp [delimiters, hne]
        rw [candidate_of_not_mem hdelimiter]
        rfl

theorem Recognises.eq_candidate {r : Rule} {lexeme : List Char} (h : r.Recognises lexeme)
    (hcontested : lexeme ∉ contested) : r = candidate lexeme := by
  cases r with
  | delimiter => simp [candidate, show (delimiters.lookup lexeme).isSome = true from h]
  | boolean => exact (candidate_of_isBoolean (by simpa [Recognises, kind?] using h)).symm
  | character => exact (candidate_of_isCharacter (by simpa [Recognises, kind?] using h)).symm
  | string => exact (candidate_of_isString (by simpa [Recognises, kind?] using h)).symm
  | number =>
      exact (candidate_of_numeral (by simpa [Recognises, kind?] using h) hcontested).symm
  | identifier =>
      exact (candidate_of_identifier (by simpa [Recognises, kind?] using h) hcontested).symm

/-! ## The order of the rules -/

theorem mem_all (r : Rule) : r ∈ all := by
  cases r <;> decide

/-- A rule that alone recognises a lexeme gives its kind, wherever it stands. -/
theorem firstKind_eq_of_mem {rules : List Rule} {lexeme : List Char} {r : Rule} {kind : Kind}
    (hunique : ∀ s : Rule, s.Recognises lexeme → s = r) (hr : r ∈ rules)
    (hkind : r.kind? lexeme = some kind) : firstKind rules lexeme = kind := by
  cases hfound : rules.findSome? fun r => r.kind? lexeme with
  | none =>
      have hnone := List.findSome?_eq_none_iff.1 hfound r hr
      rw [hkind] at hnone
      cases hnone
  | some found =>
      obtain ⟨s, -, hs⟩ := List.exists_of_findSome?_eq_some hfound
      have hsr : s = r := hunique s (by rw [Recognises, hs]; rfl)
      rw [hsr, hkind] at hs
      cases hs
      rw [firstKind, hfound]
      rfl

theorem firstKind_perm {rules : List Rule} {lexeme : List Char} (hperm : rules.Perm all)
    (hunique : ∀ r s : Rule, r.Recognises lexeme → s.Recognises lexeme → r = s) :
    firstKind rules lexeme = classifyChars lexeme := by
  rw [classifyChars]
  by_cases hsome : ∃ r : Rule, r.Recognises lexeme
  · obtain ⟨r, hr⟩ := hsome
    obtain ⟨kind, hkind⟩ := Option.isSome_iff_exists.1 hr
    have honly : ∀ s : Rule, s.Recognises lexeme → s = r := fun s hs => hunique s r hs hr
    rw [firstKind_eq_of_mem honly (hperm.mem_iff.2 r.mem_all) hkind,
      firstKind_eq_of_mem honly r.mem_all hkind]
  · have hnone : ∀ rules : List Rule, (rules.findSome? fun r => r.kind? lexeme) = none := by
      intro rules
      rw [List.findSome?_eq_none_iff]
      intro r _
      rw [← Option.not_isSome_iff_eq_none]
      exact fun hr => hsome ⟨r, hr⟩
    rw [firstKind, firstKind, hnone, hnone]

/-- Apart from a lone dot, `+i` and `-i`, at most one rule recognises a lexeme, so that any order
of the rules gives its kind. The dot is a delimiter and an identifier, the others are numerals and
identifiers, and for all three there is an order that gives another kind. -/
theorem recognises_overlap :
    (∀ x : String, x ∉ [".", "+i", "-i"] →
      (∀ r s : Rule, r.Recognises x.toList → s.Recognises x.toList → r = s) ∧
        ∀ rules : List Rule, rules.Perm all → firstKind rules x.toList = classify x) ∧
    (∀ r : Rule, r.Recognises ".".toList ↔ r = .delimiter ∨ r = .identifier) ∧
    (∀ x ∈ ["+i", "-i"], ∀ r : Rule, r.Recognises x.toList ↔ r = .number ∨ r = .identifier) ∧
    ∀ x ∈ [".", "+i", "-i"],
      ∃ rules : List Rule, rules.Perm all ∧ firstKind rules x.toList ≠ classify x := by
  refine ⟨?_, ?_, ?_, ?_⟩
  · intro x hx
    have hcontested : x.toList ∉ contested := by
      have hmap : contested = [".", "+i", "-i"].map String.toList := by decide
      have hinjective : Function.Injective String.toList := fun _ _ h => String.toList_injective h
      rw [hmap, List.mem_map_of_injective hinjective]
      exact hx
    have hunique : ∀ r s : Rule, r.Recognises x.toList → s.Recognises x.toList → r = s := by
      intro r s hr hs
      rw [hr.eq_candidate hcontested, hs.eq_candidate hcontested]
    exact ⟨hunique, fun rules hperm => firstKind_perm hperm hunique⟩
  · intro r
    cases r <;> decide
  · intro x hx r
    fin_cases hx <;> cases r <;> decide
  · intro x hx
    refine ⟨all.reverse, List.reverse_perm all, ?_⟩
    fin_cases hx <;> decide

theorem recognises_overlap_signed :
    (∀ r s : Rule, r.Recognises "+5".toList → s.Recognises "+5".toList → r = s) ∧
      firstKind all.reverse "+5".toList = .number ∧
      (∀ r : Rule, r.Recognises "+i".toList ↔ r = .number ∨ r = .identifier) ∧
      ∃ rules : List Rule, rules.Perm all ∧ firstKind rules "+i".toList ≠ classify "+i" := by
  obtain ⟨hunique, horder⟩ := recognises_overlap.1 "+5" (by decide)
  have hkind : classify "+5" = .number := by decide
  exact ⟨hunique, (horder all.reverse (List.reverse_perm all)).trans hkind,
    recognises_overlap.2.2.1 "+i" (by decide), recognises_overlap.2.2.2 "+i" (by decide)⟩

end Rule

end SchemeLexer
