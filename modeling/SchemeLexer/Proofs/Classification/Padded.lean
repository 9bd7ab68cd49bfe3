import SchemeLexer.Proofs.Lexeme.Legal
import SchemeLexer.Proofs.Lexeme.StringPadding
/-!
# Kinds do not depend on the padding

Blanks around the delimiters inside strings change no kind. A lexeme that they change holds a
quote and a delimiter, and among such lexemes only the strings are legal; and whether a lexeme is
a string does not depend on the blanks, not even where one of them comes to stand after a
backslash.
-/

namespace SchemeLexer

open Lexeme

/-! ## Strings stay strings -/

namespace Literal

theorem closes_cons {c : Char} (rest : List Char) (hquote : c ≠ '"') (hslash : c ≠ '\\') :
    closes (c :: rest) = closes rest := by
  rw [closes]
  · exact hquote
  · exact fun h => absurd h hslash
  · exact fun _ _ h => absurd h hslash

theorem closes_blank (rest : List Char) : closes (' ' :: rest) = closes rest :=
  closes_cons rest (by decide) (by decide)

theorem closes_spaced {c : Char} (rest : List Char) (hquote : c ≠ '"') (hslash : c ≠ '\\') :
    closes (spaced c ++ rest) = closes rest := by
  unfold spaced
  split_ifs <;> simp [closes_blank, closes_cons _ hquote hslash]

/-- A backslash takes the first blank with it in place of the delimiter, which then is a character
like any other. -/
theorem closes_escape_spaced (c : Char) (rest : List Char) :
    closes ('\\' :: (spaced c ++ rest)) = closes rest := by
  by_cases hc : Delimiter c
  · have hplain : closes (c :: ' ' :: rest) = closes rest := by
      rw [closes_cons, closes_blank]
      · rcases hc with rfl | rfl | rfl <;> decide
      · rcases hc with rfl | rfl | rfl <;> decide
    rcases hc with rfl | rfl | rfl
    · exact closes_blank rest
    · exact hplain
    · exact hplain
  · rw [spaced_of_not_delimiter hc]
    rfl

theorem isEmpty_padStrings (text : List Char) : (padStrings text).isEmpty = text.isEmpty := by
  cases text with
  | nil => rfl
  | cons c text => simp [padStrings, located, padInside]

/-- The induction is on the reading of the string, so that an escaped character goes together with
its backslash. -/
theorem closes_padInside (rest : List Char) :
    closes ((located true rest).flatMap padInside) = closes rest := by
  fun_induction closes rest with
  | case1 => rfl
  | case2 rest =>
      have hquote : padInside ('"', true) = ['"'] := by decide
      rw [located, List.flatMap_cons, hquote]
      exact isEmpty_padStrings rest
  | case3 => rfl
  | case4 c rest ih =>
      have hslash : padInside ('\\', true) = ['\\'] := by decide
      rw [located, List.flatMap_cons, List.flatMap_cons, hslash, List.singleton_append,
        padInside, if_pos rfl, closes_escape_spaced, ih]
  | case5 c rest hquote hlone hpair ih =>
      have hslash : c ≠ '\\' := by
        intro hslash
        cases hrest : rest with
        | nil => exact hlone hslash hrest
        | cons d rest => exact hpair d rest hslash hrest
      rw [located, List.flatMap_cons, padInside, if_pos rfl, closes_spaced _ hquote hslash, ih]
      · exact hquote
      · exact fun _ _ h => absurd h hslash

theorem isString_padStrings (lexeme : List Char) :
    isString (padStrings lexeme) = isString lexeme := by
  cases lexeme with
  | nil => rfl
  | cons c rest =>
      have hcons : padStrings (c :: rest) = c :: (located (c = '"') rest).flatMap padInside := rfl
      rw [hcons]
      by_cases hquote : c = '"'
      · subst hquote
        exact closes_padInside rest
      · have hno : ∀ text, isString (c :: text) = false := by
          intro text
          unfold isString
          split
          · next heq => exact absurd (List.cons.inj heq).1 hquote
          · rfl
        rw [hno, hno]

end Literal

/-! ## Lexemes with a quote and a delimiter -/

theorem mem_quote_of_mem_quoted {text : List Char} {c : Char} (h : c ∈ quoted text) :
    '"' ∈ text := by
  induction text with
  | nil => simp at h
  | cons d text ih =>
      by_cases hd : d = '"'
      · simp [hd]
      · have hrest : quoted (d :: text) = quoted text := by simp [quoted, located, hd]
        rw [hrest] at h
        exact List.mem_cons_of_mem d (ih h)

theorem mem_of_mem_quoted {text : List Char} {c : Char} (h : c ∈ quoted text) : c ∈ text := by
  rw [← map_fst_located_false text]
  exact List.mem_map_of_mem (mem_quoted.1 h)

theorem mem_spaced (c : Char) : c ∈ spaced c := by
  unfold spaced
  split_ifs <;> simp

theorem mem_padStrings {text : List Char} {c : Char} (h : c ∈ text) : c ∈ padStrings text := by
  rw [← map_fst_located_false text] at h
  obtain ⟨p, hp, rfl⟩ := List.mem_map.1 h
  refine List.mem_flatMap.2 ⟨p, hp, ?_⟩
  unfold padInside
  split_ifs
  · exact mem_spaced p.1
  · simp

theorem Literal.isCharacter_eq_false {lexeme : List Char} {c : Char} (hquote : '"' ∈ lexeme)
    (hc : c ∈ lexeme) (hdelimiter : Delimiter c) : isCharacter lexeme = false := by
  rw [Bool.eq_false_iff]
  intro h
  rcases eq_of_isCharacter h with ⟨d, rfl⟩ | rfl | rfl
  · have hd : d = '"' := by simpa [eq_comm] using hquote
    subst hd
    rcases hdelimiter with rfl | rfl | rfl <;> exact absurd hc (by decide)
  · exact absurd hquote (by decide)
  · exact absurd hquote (by decide)

/-- Every rule but that of strings rejects a lexeme with a quote, save the character literal of
the quote itself, which has room for nothing else. -/
theorem classifyChars_of_mem_quote {lexeme : List Char} {c : Char} (hquote : '"' ∈ lexeme)
    (hc : c ∈ lexeme) (hdelimiter : Delimiter c) :
    classifyChars lexeme = if Literal.isString lexeme then .string else .illegal := by
  have hlookup : Rule.delimiters.lookup lexeme = none := by
    have hnone : ∀ p ∈ Rule.delimiters, '"' ∉ p.1 := by decide
    rw [Option.eq_none_iff_forall_not_mem]
    intro kind hkind
    exact hnone _ (mem_delimiters_of_lookup hkind) hquote
  have hboolean : Literal.isBoolean lexeme = false := by
    rw [Bool.eq_false_iff]
    intro h
    simp only [Literal.isBoolean, decide_eq_true_eq, List.mem_cons, List.not_mem_nil,
      or_false] at h
    rcases h with rfl | rfl | rfl | rfl <;> exact absurd hquote (by decide)
  have hcharacter := Literal.isCharacter_eq_false hquote hc hdelimiter
  have hsubsequent : ¬ ∀ d ∈ lexeme, Charset.isSubsequent d = true := fun h =>
    absurd (h '"' hquote) (by decide)
  have hnumber : Numeral.accepts lexeme = false := by
    rw [Bool.eq_false_iff]
    intro h
    obtain ⟨n, rfl, hvalid⟩ := Numeral.exists_of_accepts h
    exact hsubsequent hvalid.isSubsequent
  have hidentifier : Identifier.accepts lexeme = false := by
    rw [Bool.eq_false_iff]
    exact fun h => hsubsequent (Identifier.isSubsequent_of_accepts h)
  simp [classifyChars_eq, hlookup, hboolean, hcharacter, hnumber, hidentifier]

theorem classifyChars_padStrings (lexeme : List Char) :
    classifyChars (padStrings lexeme) = classifyChars lexeme := by
  by_cases hsame : ∀ c ∈ quoted lexeme, ¬ Delimiter c
  · rw [(padStrings_eq_self_iff lexeme).2 hsame]
  · obtain ⟨c, hc, hdelimiter⟩ : ∃ c ∈ quoted lexeme, Delimiter c := by
      simpa using hsame
    have hquote := mem_quote_of_mem_quoted hc
    have hmem := mem_of_mem_quoted hc
    rw [classifyChars_of_mem_quote hquote hmem hdelimiter,
      classifyChars_of_mem_quote (mem_padStrings hquote) (mem_padStrings hmem) hdelimiter,
      Literal.isString_padStrings]

theorem map_kind_tokenize_everywhere (source : String) :
    (tokenize .everywhere source).map Token.kind =
      (tokenize .outsideStrings source).map Token.kind := by
  have hkind : ∀ lexemes : List (List Char),
      ((lexemes.map String.ofList).map Token.ofLexeme).map Token.kind =
        lexemes.map classifyChars := by
    intro lexemes
    simp [Token.ofLexeme, classify, Function.comp_def]
  rw [tokenize, tokenize, split, split, hkind, hkind, splitChars, splitChars,
    scan_padEverywhere, List.map_map]
  apply List.map_congr_left
  intro lexeme _
  exact classifyChars_padStrings lexeme

/-- The two paddings give as many tokens, and at each place tokens of the same kind. -/
theorem kind_tokenize_everywhere (source : String) :
    (tokenize .everywhere source).length = (tokenize .outsideStrings source).length ∧
      ∀ i : Nat, (tokenize .everywhere source)[i]?.map Token.kind =
        (tokenize .outsideStrings source)[i]?.map Token.kind := by
  have hkinds := map_kind_tokenize_everywhere source
  constructor
  · simpa using congrArg List.length hkinds
  · intro i
    rw [← List.getElem?_map, ← List.getElem?_map, hkinds]

-- The literals may differ, also where the kind is that of a string.
example :
    tokenize .everywhere "\"\\(\"" = [⟨.string, some "\"\\( \""⟩] ∧
      tokenize .outsideStrings "\"\\(\"" = [⟨.string, some "\"\\(\""⟩] := by
  decide

end SchemeLexer
