import SchemeLexer.Proofs.Classification
import SchemeLexer.Proofs.Lexeme.Layout
import SchemeLexer.Proofs.Numeral.Spelling
import SchemeLexer.Token
/-!
# Legal lexemes survive the scan

The rules of classification and the scan are written independently of each other. Here each rule's
lexemes are found in the grammar of the scan: delimiters, booleans, strings, numerals and
identifiers are closed lexemes, and so are character literals, unless the character named is one
that ends a lexeme or opens a string.
-/

namespace SchemeLexer

open Lexeme

/-! ## Identifiers and numerals -/

theorem plain_of_isSubsequent {c : Char} (h : Charset.isSubsequent c = true) : Plain c := by
  refine ⟨?_, ?_, ?_, ?_, ?_⟩
  · rw [Bool.eq_false_iff]
    intro hblank
    simp only [Charset.isWhitespace, decide_eq_true_eq, List.mem_cons, List.not_mem_nil,
      or_false] at hblank
    rcases hblank with rfl | rfl | rfl | rfl | rfl | rfl <;> exact absurd h (by decide)
  all_goals
    rintro rfl
    exact absurd h (by decide)

theorem closed_of_isSubsequent {lexeme : List Char} (hne : lexeme ≠ [])
    (h : ∀ c ∈ lexeme, Charset.isSubsequent c = true) : Closed lexeme :=
  Closed.units (Units.of_plain fun c hc => plain_of_isSubsequent (h c hc)) hne

theorem isSubsequent_of_isInitial {c : Char} (h : Charset.isInitial c = true) :
    Charset.isSubsequent c = true := by
  simp [Charset.isSubsequent, h]

theorem isSubsequent_of_isDotSubsequent {c : Char} (h : Charset.isDotSubsequent c = true) :
    Charset.isSubsequent c = true := by
  simp only [Charset.isDotSubsequent, Charset.isSignSubsequent, Charset.isSubsequent,
    Charset.isSpecialSubsequent, Bool.or_eq_true] at h ⊢
  rcases h with ((h | h) | h) | h <;> simp [h]

namespace Identifier

theorem isSubsequent_of_afterDot {rest : List Char} (h : afterDot rest = true) :
    ∀ c ∈ rest, Charset.isSubsequent c = true := by
  cases rest with
  | nil => simp
  | cons d rest =>
      simp only [afterDot, Bool.and_eq_true, List.all_eq_true] at h
      exact List.forall_mem_cons.2 ⟨isSubsequent_of_isDotSubsequent h.1, h.2⟩

theorem isSubsequent_of_afterSign {rest : List Char} (h : afterSign rest = true) :
    ∀ c ∈ rest, Charset.isSubsequent c = true := by
  cases rest with
  | nil => simp
  | cons d rest =>
      rw [List.forall_mem_cons]
      simp only [afterSign] at h
      split_ifs at h with hdot
      · exact ⟨by rw [hdot]; decide, isSubsequent_of_afterDot h⟩
      · simp only [Bool.and_eq_true, List.all_eq_true] at h
        refine ⟨isSubsequent_of_isDotSubsequent ?_, h.2⟩
        simp [Charset.isDotSubsequent, h.1]

theorem isSubsequent_of_accepts {lexeme : List Char} (h : accepts lexeme = true) :
    ∀ c ∈ lexeme, Charset.isSubsequent c = true := by
  cases lexeme with
  | nil => cases h
  | cons d rest =>
      rw [List.forall_mem_cons]
      simp only [accepts] at h
      split_ifs at h with hinitial hsign hdot
      · exact ⟨isSubsequent_of_isInitial hinitial, List.all_eq_true.1 h⟩
      · refine ⟨?_, isSubsequent_of_afterSign h⟩
        simp [Charset.isSubsequent, Charset.isSpecialSubsequent, hsign]
      · exact ⟨by rw [hdot]; decide, isSubsequent_of_afterDot h⟩

theorem closed_of_accepts {lexeme : List Char} (h : accepts lexeme = true) :
    Closed lexeme := by
  have hne : lexeme ≠ [] := by
    rintro rfl
    cases h
  exact closed_of_isSubsequent hne (isSubsequent_of_accepts h)

end Identifier

theorem Numeral.closed_of_accepts {lexeme : List Char} (h : accepts lexeme = true) :
    Closed lexeme := by
  obtain ⟨n, rfl, hvalid⟩ := exists_of_accepts h
  exact closed_of_isSubsequent hvalid.spelled_ne_nil hvalid.isSubsequent

/-! ## Booleans, characters and strings -/

namespace Lexeme

/-- A character literal whose character ends a lexeme wherever it stands outside strings. -/
def CutCharacter (lexeme : List Char) : Prop :=
  ∃ c ∈ lexeme, (Standalone c ∨ Charset.isWhitespace c = true) ∧ lexeme = ['#', '\\', c]

instance : DecidablePred CutCharacter := fun lexeme => List.decidableBEx _ lexeme

theorem units_character_mark : Units ['#', '\\'] :=
  Units.of_all_plain (by decide)

theorem open_quote_character : Open ['#', '\\', '"'] :=
  ⟨['#', '\\'], [], [], units_character_mark, Items.nil, Or.inl rfl, rfl⟩

theorem CutCharacter.scan_ne {lexeme : List Char} (h : CutCharacter lexeme) :
    scan true lexeme ≠ [lexeme] := by
  obtain ⟨c, _, hc, rfl⟩ := h
  have hsplit : ['#', '\\', c] = ['#', '\\'] ++ [c] := rfl
  have hmark := units_character_mark.scan_eq (by simp)
  rcases hc with hc | hc
  · rw [hsplit, scan_append_standalone [] units_character_mark.after_outside hc, hmark]
    simp
  · rw [hsplit, scan_append_blank true [] units_character_mark.after_outside hc, hmark]
    simp

end Lexeme

namespace Literal

theorem exists_items_of_closes {text : List Char} (h : closes text = true) :
    ∃ items, Items items ∧ text = items ++ ['"'] := by
  fun_induction closes text with
  | case1 => cases h
  | case2 rest => exact ⟨[], Items.nil, by rw [List.isEmpty_iff.1 h]; rfl⟩
  | case3 => cases h
  | case4 c rest ih =>
      obtain ⟨items, hitems, rfl⟩ := ih h
      exact ⟨'\\' :: c :: items, Items.escape hitems, rfl⟩
  | case5 c rest hquote hlone hpair ih =>
      obtain ⟨items, hitems, rfl⟩ := ih h
      have hslash : c ≠ '\\' := by
        intro hslash
        cases hrest : items ++ ['"'] with
        | nil => exact hlone hslash hrest
        | cons d rest => exact hpair d rest hslash hrest
      exact ⟨c :: items, Items.plain hquote hslash hitems, rfl⟩

theorem closed_of_isString {lexeme : List Char} (h : isString lexeme = true) :
    Closed lexeme := by
  unfold isString at h
  split at h
  · next rest =>
      obtain ⟨items, hitems, rfl⟩ := exists_items_of_closes h
      exact Closed.units (Units.of_literal ⟨items, hitems, rfl⟩) (by simp)
  · cases h

theorem closed_of_isBoolean {lexeme : List Char} (h : isBoolean lexeme = true) :
    Closed lexeme := by
  simp only [isBoolean, decide_eq_true_eq, List.mem_cons, List.not_mem_nil, or_false] at h
  rcases h with rfl | rfl | rfl | rfl <;>
    exact Closed.units (Units.of_all_plain (by decide)) (by simp)

theorem eq_of_isCharacter {lexeme : List Char} (h : isCharacter lexeme = true) :
    (∃ c, lexeme = ['#', '\\', c]) ∨ lexeme = ['#', '\\', 's', 'p', 'a', 'c', 'e'] ∨
      lexeme = ['#', '\\', 'n', 'e', 'w', 'l', 'i', 'n', 'e'] := by
  unfold isCharacter at h
  split at h
  · next name =>
      unfold isCharacterName at h
      split at h
      · next c => exact Or.inl ⟨c, rfl⟩
      · simp only [Bool.or_eq_true, decide_eq_true_eq] at h
        rcases h with rfl | rfl
        · exact Or.inr (Or.inl rfl)
        · exact Or.inr (Or.inr rfl)
  · cases h

/-- A character literal is a closed lexeme unless its own character cuts it or opens a string. -/
theorem closed_or_cut_of_isCharacter {lexeme : List Char} (h : isCharacter lexeme = true) :
    Closed lexeme ∨ CutCharacter lexeme ∨ lexeme = ['#', '\\', '"'] := by
  rcases eq_of_isCharacter h with ⟨c, rfl⟩ | rfl | rfl
  · rcases Scan.char_cases c with hc | rfl | hc | rfl | hc
    · exact Or.inr (Or.inl ⟨c, by simp, Or.inr hc, rfl⟩)
    · exact Or.inl (Closed.opening units_character_mark)
    · exact Or.inr (Or.inl ⟨c, by simp, Or.inl hc, rfl⟩)
    · exact Or.inr (Or.inr rfl)
    · have hunits := units_character_mark.append (Units.plain hc Units.nil)
      exact Or.inl (Closed.units hunits (by simp))
  · exact Or.inl (Closed.units (Units.of_all_plain (by decide)) (by simp))
  · exact Or.inl (Closed.units (Units.of_all_plain (by decide)) (by simp))

end Literal

/-! ## All legal lexemes -/

theorem closed_of_mem_delimiters {lexeme : List Char} {kind : Kind}
    (h : (lexeme, kind) ∈ Rule.delimiters) : Closed lexeme := by
  have hhash : Units ['#'] := Units.of_all_plain (by decide)
  simp only [Rule.delimiters, List.mem_cons, Prod.mk.injEq, List.not_mem_nil, or_false] at h
  rcases h with ⟨rfl, _⟩ | ⟨rfl, _⟩ | ⟨rfl, _⟩ | ⟨rfl, _⟩ | ⟨rfl, _⟩ | ⟨rfl, _⟩
  · exact Closed.opening hhash
  · exact Closed.standalone (Or.inr rfl)
  · exact Closed.opening Units.nil
  · exact Closed.standalone (Or.inl rfl)
  · exact Closed.units (Units.of_all_plain (by decide)) (by simp)
  · exact Closed.units (Units.of_all_plain (by decide)) (by simp)

theorem closed_or_cut_of_legal {lexeme : List Char} (h : classifyChars lexeme ≠ .illegal) :
    Closed lexeme ∨ CutCharacter lexeme ∨ lexeme = ['#', '\\', '"'] := by
  rw [classifyChars_eq] at h
  cases hlookup : Rule.delimiters.lookup lexeme with
  | some kind => exact Or.inl (closed_of_mem_delimiters (mem_delimiters_of_lookup hlookup))
  | none =>
      rw [hlookup] at h
      dsimp only at h
      split_ifs at h with hboolean hcharacter hstring hnumber hidentifier
      · exact Or.inl (Literal.closed_of_isBoolean hboolean)
      · exact Literal.closed_or_cut_of_isCharacter hcharacter
      · exact Or.inl (Literal.closed_of_isString hstring)
      · exact Or.inl (Numeral.closed_of_accepts hnumber)
      · exact Or.inl (Identifier.closed_of_accepts hidentifier)
      · exact absurd rfl h

/-! ## Lexemes joined by whitespace -/

namespace Lexeme

/-- Texts in order with a run of whitespace between neighbours, none of the runs empty. -/
inductive Joined : List (List Char) → List Char → Prop where
  | nil : Joined [] []
  | single (text : List Char) : Joined [text] text
  | cons {text gap next more : List Char} {rest : List (List Char)} :
      Blank gap → gap ≠ [] → Joined (next :: rest) more →
        Joined (text :: next :: rest) (text ++ gap ++ more)

theorem Joined.spaced {lexemes : List (List Char)} {text : List Char}
    (h : Joined lexemes text) (hclosed : ∀ lexeme ∈ lexemes.dropLast, Closed lexeme)
    (hlast : ∀ lexeme ∈ lexemes.getLast?, Closed lexeme ∨ Open lexeme) :
    Spaced lexemes text := by
  induction h with
  | nil => exact Spaced.none
  | single text =>
      rcases hlast text rfl with hend | hend
      · simpa using Spaced.closed hend blank_nil
      · exact Spaced.unfinished hend
  | @cons text gap next more rest hgap hne _ ih =>
      rw [List.dropLast_cons_of_ne_nil (by simp), List.forall_mem_cons] at hclosed
      rw [List.getLast?_cons_cons] at hlast
      exact Spaced.more hclosed.1 hgap (fun hempty => absurd hempty hne) (ih hclosed.2 hlast)

end Lexeme

/-- Legal lexemes that are joined by whitespace are the tokens of the text, unless one is a
character literal that its own character cuts; a literal of the double quote opens a string and so
can only come last. A cut literal is not even found when it stands alone. -/
theorem tokenize_joined_legal :
    (∀ (lexemes : List String) (source : String),
      (∀ x ∈ lexemes, classify x ≠ .illegal ∧ ¬ CutCharacter x.toList) →
      (∀ x ∈ lexemes.dropLast, x ≠ "#\\\"") →
      Joined (lexemes.map String.toList) source.toList →
        tokenize .outsideStrings source = lexemes.map fun x => ⟨classify x, some x⟩) ∧
    (∀ x : String, classify x = .character → CutCharacter x.toList →
      tokenize .outsideStrings x ≠ [⟨.character, some x⟩]) := by
  constructor
  · intro lexemes source hlegal hquote hjoined
    have hspaced : Spaced (lexemes.map String.toList) source.toList := by
      apply hjoined.spaced
      · rw [← List.map_dropLast, List.forall_mem_map]
        intro x hx
        obtain ⟨hkind, hcut⟩ := hlegal x (List.dropLast_subset lexemes hx)
        rcases closed_or_cut_of_legal hkind with hclosed | hc | hopen
        · exact hclosed
        · exact absurd hc hcut
        · exact absurd (String.toList_injective hopen) (hquote x hx)
      · intro lexeme hlexeme
        obtain ⟨x, hx, rfl⟩ := List.mem_map.1 (List.mem_of_getLast? hlexeme)
        obtain ⟨hkind, hcut⟩ := hlegal x hx
        rcases closed_or_cut_of_legal hkind with hclosed | hc | hopen
        · exact Or.inl hclosed
        · exact absurd hc hcut
        · rw [hopen]
          exact Or.inr open_quote_character
    have hsplit : split .outsideStrings source = lexemes :=
      split_eq_iff.2 hspaced.scan_eq
    rw [tokenize, hsplit]
    rfl
  · intro x _ hcut htokens
    obtain ⟨y, hsplit, hy⟩ := List.map_eq_singleton_iff.1 htokens
    have hyx : y = x := by
      simpa [Token.ofLexeme] using congrArg Token.literal hy
    rw [hyx, split_eq_iff] at hsplit
    exact hcut.scan_ne hsplit

theorem tokenize_joined_legal_mixed :
    tokenize .outsideStrings "#\\(\n\t\"a ) b\" +1/2-3i #\\\"" =
        [⟨.character, some "#\\("⟩, ⟨.string, some "\"a ) b\""⟩, ⟨.number, some "+1/2-3i"⟩,
          ⟨.character, some "#\\\""⟩] ∧
      tokenize .outsideStrings "#\\)" ≠ [⟨.character, some "#\\)"⟩] := by
  have hlast : Joined ["#\\\"".toList] "#\\\"".toList := Joined.single _
  have hnumber : Joined ["+1/2-3i".toList, "#\\\"".toList]
      ("+1/2-3i".toList ++ [' '] ++ "#\\\"".toList) :=
    Joined.cons (by decide) (by decide) hlast
  have hstring : Joined ["\"a ) b\"".toList, "+1/2-3i".toList, "#\\\"".toList]
      ("\"a ) b\"".toList ++ [' '] ++ "+1/2-3i #\\\"".toList) :=
    Joined.cons (by decide) (by decide) hnumber
  have hjoined : Joined
      ["#\\(".toList, "\"a ) b\"".toList, "+1/2-3i".toList, "#\\\"".toList]
      ("#\\(".toList ++ ['\n', '\t'] ++ "\"a ) b\" +1/2-3i #\\\"".toList) :=
    Joined.cons (by decide) (by decide) hstring
  exact ⟨tokenize_joined_legal.1 ["#\\(", "\"a ) b\"", "+1/2-3i", "#\\\""] _ (by decide)
      (by decide) hjoined,
    tokenize_joined_legal.2 "#\\)" (by decide) (by decide)⟩

end SchemeLexer
