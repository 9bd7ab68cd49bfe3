import SchemeLexer.Proofs.Lexeme.Legal
import SchemeLexer.Proofs.Lexeme.StringPadding
/-!
# Reading lexemes again

The lexemes of a source, written with whitespace between them, are read again as they are, legal
or not. All that is needed for this is that each of them leaves the scan outside strings, the last
one excepted, after which nothing follows. Lexemes that were found with padding everywhere have
blanks in their strings that no source need have had; they are lexemes of the other padding too,
since blanks in a string leave it in the grammar.
-/

namespace SchemeLexer

/-! ## Padded texts by modes -/

/-- A text that is read from a mode on, with every delimiter inside a string set apart. -/
def Mode.padded (m : Mode) (text : List Char) : List Char :=
  (m.located text).flatMap Lexeme.padInside

namespace Mode

theorem padded_cons (m : Mode) (c : Char) (text : List Char) :
    m.padded (c :: text) = (if m.inside then spaced c else [c]) ++ (m.next c).padded text := by
  rw [padded, located, List.flatMap_cons]
  rfl

theorem padded_append (m : Mode) (text more : List Char) :
    m.padded (text ++ more) = m.padded text ++ (m.after text).padded more := by
  simp [padded, located_append]

end Mode

namespace Lexeme

theorem padStrings_eq_padded (text : List Char) : padStrings text = Mode.outside.padded text := by
  rw [padStrings, located_false, Mode.padded]

/-! ## The grammar is kept -/

theorem items_blank : Items [' '] :=
  Items.plain (by decide) (by decide) Items.nil

theorem items_spaced {c : Char} (hquote : c ≠ '"') (hslash : c ≠ '\\') : Items (spaced c) := by
  have hc : Items [c] := Items.plain hquote hslash Items.nil
  unfold spaced
  split_ifs
  · exact hc.append items_blank
  · exact items_blank.append (hc.append items_blank)
  · exact hc

/-- A backslash before a delimiter comes to escape the first blank, and the delimiter is then an
item of its own. -/
theorem items_escape_spaced (c : Char) : Items ('\\' :: spaced c) := by
  by_cases hc : Delimiter c
  · rcases hc with rfl | rfl | rfl
    · exact Items.escape items_blank
    · exact Items.escape (Items.plain (by decide) (by decide) items_blank)
    · exact Items.escape (Items.plain (by decide) (by decide) items_blank)
  · rw [spaced_of_not_delimiter hc]
    exact Items.escape Items.nil

theorem Items.padded {items : List Char} (h : Items items) :
    Items (Mode.inString.padded items) := by
  induction h with
  | nil => exact Items.nil
  | @plain c rest hquote hslash _ ih =>
      have hnext : Mode.inString.next c = .inString := by simp [Mode.next, hquote, hslash]
      rw [Mode.padded_cons, hnext]
      exact (items_spaced hquote hslash).append ih
  | @escape c rest _ ih =>
      have hslash : spaced '\\' = ['\\'] := by decide
      have hpair : Mode.inString.padded ('\\' :: c :: rest) =
          ('\\' :: spaced c) ++ Mode.inString.padded rest := by
        simp [Mode.padded_cons, Mode.inside, Mode.next, hslash]
      rw [hpair]
      exact (items_escape_spaced c).append ih

/-- The quote that opens a string stands outside of it, and the text goes on inside. -/
theorem padded_quote (text : List Char) :
    Mode.outside.padded ('"' :: text) = '"' :: Mode.inString.padded text :=
  Mode.padded_cons .outside '"' text

theorem padded_literal {body : List Char} (h : Items body) (rest : List Char) :
    Mode.outside.padded ('"' :: (body ++ ['"']) ++ rest) =
      '"' :: (Mode.inString.padded body ++ ['"']) ++ Mode.outside.padded rest := by
  have hclose : Mode.inString.padded ('"' :: rest) = '"' :: Mode.outside.padded rest :=
    Mode.padded_cons .inString '"' rest
  rw [List.cons_append, List.append_assoc, List.singleton_append, padded_quote,
    Mode.padded_append, h.after_inString, hclose]
  simp

theorem Units.padded {units : List Char} (h : Units units) :
    Units (Mode.outside.padded units) := by
  induction h with
  | nil => exact Units.nil
  | @plain c rest hplain _ ih =>
      rw [Mode.padded_cons, hplain.next_outside]
      exact Units.plain hplain ih
  | literal hliteral _ ih =>
      obtain ⟨body, hbody, rfl⟩ := hliteral
      rw [padded_literal hbody]
      exact Units.literal ⟨_, hbody.padded, rfl⟩ ih

theorem Closed.padStrings {lexeme : List Char} (h : Closed lexeme) :
    Closed (padStrings lexeme) := by
  cases h with
  | standalone hc =>
      rw [padStrings_singleton]
      exact Closed.standalone hc
  | units hunits hne =>
      have hpadded := padStrings_ne_nil hne
      rw [padStrings_eq_padded] at hpadded ⊢
      exact Closed.units hunits.padded hpadded
  | opening hunits =>
      rw [padStrings_snoc, hunits.after_outside, padStrings_eq_padded]
      exact Closed.opening hunits.padded

theorem Open.padStrings {lexeme : List Char} (h : Open lexeme) : Open (padStrings lexeme) := by
  obtain ⟨units, items, tail, hunits, hitems, htail, rfl⟩ := h
  have hkept : Mode.inString.padded tail = tail := by
    rcases htail with rfl | rfl
    · rfl
    · decide
  refine ⟨_, _, tail, hunits.padded, hitems.padded, htail, ?_⟩
  rw [padStrings_eq_padded, Mode.padded_append, hunits.after_outside, padded_quote,
    Mode.padded_append, hitems.after_inString, hkept]

/-! ## Lexemes of a source -/

/-- Lexemes of which all but the last are closed, while the last may be open. -/
def Complete (lexemes : List (List Char)) : Prop :=
  (∀ lexeme ∈ lexemes.dropLast, Closed lexeme) ∧
    ∀ lexeme ∈ lexemes.getLast?, Closed lexeme ∨ Open lexeme

theorem Spaced.complete {lexemes : List (List Char)} {text : List Char}
    (h : Spaced lexemes text) : Complete lexemes := by
  induction h with
  | none => exact ⟨by simp, by simp⟩
  | closed hlexeme _ => exact ⟨by simp, by simpa using Or.inl hlexeme⟩
  | unfinished hlexeme => exact ⟨by simp, by simpa using Or.inr hlexeme⟩
  | more hlexeme _ _ _ ih =>
      obtain ⟨hclosed, hlast⟩ := ih
      refine ⟨?_, ?_⟩
      · rw [List.dropLast_cons_of_ne_nil (by simp), List.forall_mem_cons]
        exact ⟨hlexeme, hclosed⟩
      · rwa [List.getLast?_cons_cons]

theorem Complete.map_padStrings {lexemes : List (List Char)} (h : Complete lexemes) :
    Complete (lexemes.map padStrings) := by
  obtain ⟨hclosed, hlast⟩ := h
  constructor
  · rw [← List.map_dropLast, List.forall_mem_map]
    intro lexeme hlexeme
    exact (hclosed lexeme hlexeme).padStrings
  · rw [List.getLast?_map]
    intro padded hpadded
    obtain ⟨lexeme, hlexeme, rfl⟩ := Option.map_eq_some_iff.1 hpadded
    exact (hlast lexeme hlexeme).imp Closed.padStrings Open.padStrings

theorem complete_scan (text : List Char) : Complete (scan true text) := by
  obtain ⟨_, _, _, hspaced, _⟩ := layout_scan text
  exact hspaced.complete

theorem complete_splitChars (padding : Padding) (text : List Char) :
    Complete (splitChars padding text) := by
  cases padding with
  | outsideStrings => exact complete_scan text
  | everywhere =>
      rw [splitChars, scan_padEverywhere]
      exact (complete_scan text).map_padStrings

theorem Joined.scan_eq {lexemes : List (List Char)} {text : List Char} (h : Joined lexemes text)
    (hcomplete : Complete lexemes) : scan true text = lexemes :=
  (h.spaced hcomplete.1 hcomplete.2).scan_eq

end Lexeme

open Lexeme

/-! ## Tokens of a source -/

theorem map_literal_tokenize (padding : Padding) (source : String) :
    (tokenize padding source).map Token.literal =
      (tokenize padding source).map fun t => some (.plain t.text.shown) := by
  rw [tokenize, List.map_map, List.map_map]
  rfl

theorem map_toList_split (padding : Padding) (source : String) :
    (split padding source).map String.toList = splitChars padding source.toList :=
  (split_eq_iff.1 rfl).symm

theorem map_shown_tokenize (padding : Padding) (source : String) :
    ((tokenize padding source).map fun t => t.text.shown) = split padding source := by
  rw [tokenize, List.map_map]
  exact List.map_id _

/-- All tokens of a source have a plain literal, and the literals, joined by whitespace in whatever
way, are read as the same tokens, whichever padding they were found with. -/
theorem tokenize_joined_literals (padding : Padding) (source : String) :
    (tokenize padding source).map Token.literal =
        ((tokenize padding source).map fun t => some (.plain t.text.shown)) ∧
    ∀ joined : String,
      Joined ((tokenize padding source).map fun t => t.text.shown.toList) joined.toList →
        tokenize .outsideStrings joined = tokenize padding source := by
  refine ⟨map_literal_tokenize padding source, ?_⟩
  intro joined hjoined
  have hliterals : ((tokenize padding source).map fun t => t.text.shown.toList) =
      splitChars padding source.toList := by
    rw [← map_toList_split, ← map_shown_tokenize, List.map_map]
    rfl
  rw [hliterals] at hjoined
  have hscan := hjoined.scan_eq (complete_splitChars padding source.toList)
  have hsplit : split .outsideStrings joined = split padding source := by
    rw [split_eq_iff, map_toList_split]
    exact hscan
  rw [tokenize, hsplit, tokenize]

/-- An illegal lexeme with a padded string in it, a quotation mark, and a string that is not
closed and ends in a backslash. -/
theorem tokenize_joined_literals_unclosed :
    tokenize .everywhere "a|\"( )\"'\"x(\\" =
        [⟨.illegal, some "a|\"(   ) \""⟩, ⟨.quotation, some "'"⟩, ⟨.illegal, some "\"x( \\"⟩] ∧
      tokenize .outsideStrings "a|\"(   ) \"\n\t'\x0c\"x( \\" =
        tokenize .everywhere "a|\"( )\"'\"x(\\" := by
  have htokens : tokenize .everywhere "a|\"( )\"'\"x(\\" =
      [⟨.illegal, some "a|\"(   ) \""⟩, ⟨.quotation, some "'"⟩, ⟨.illegal, some "\"x( \\"⟩] := by
    decide
  have hlast : Joined ["\"x( \\".toList] "\"x( \\".toList := Joined.single _
  have hquotation : Joined ["'".toList, "\"x( \\".toList]
      ("'".toList ++ ['\x0c'] ++ "\"x( \\".toList) :=
    Joined.cons (by decide) (by decide) hlast
  have hjoined : Joined ["a|\"(   ) \"".toList, "'".toList, "\"x( \\".toList]
      ("a|\"(   ) \"".toList ++ ['\n', '\t'] ++ "'\x0c\"x( \\".toList) :=
    Joined.cons (by decide) (by decide) hquotation
  refine ⟨htokens, (tokenize_joined_literals _ _).2 _ ?_⟩
  rw [htokens]
  exact hjoined

/-! ## Sources with surrogates -/

/-- What stands in the place of a replacement character is shown as one. -/
theorem Text.map_shown_restored {found : List CodePoint} (h : ∀ p ∈ found, p.shown = replacement)
    (text : List Char) :
    (restored found text).1.map CodePoint.shown = text ∧
      ∀ p ∈ (restored found text).2, p.shown = replacement := by
  fun_induction restored found text with
  | case1 found => exact ⟨rfl, h⟩
  | case2 text => exact ⟨map_shown_map_char text, by simp⟩
  | case3 p found rest points left hrestored ih =>
      obtain ⟨hp, hfound⟩ := List.forall_mem_cons.1 h
      obtain ⟨hpoints, hleft⟩ := ih hfound
      rw [hrestored] at hpoints hleft
      exact ⟨by rw [List.map_cons, hp, hpoints], hleft⟩
  | case4 p found c rest hc points left hrestored ih =>
      obtain ⟨hpoints, hleft⟩ := ih h
      rw [hrestored] at hpoints hleft
      exact ⟨by rw [List.map_cons, CodePoint.shown, hpoints], hleft⟩

theorem map_shown_restoreAll {found : List CodePoint}
    (h : ∀ p ∈ found, p.shown = Text.replacement) (tokens : List Token) :
    ((Token.restoreAll found tokens).map fun t => (t.kind, t.text.shown)) =
      tokens.map fun t => (t.kind, t.text.shown) := by
  induction tokens generalizing found with
  | nil => rfl
  | cons t tokens ih =>
      obtain ⟨hpoints, hleft⟩ := Text.map_shown_restored h t.text.shown.toList
      have hshown : (Text.ofPoints (Text.restored found t.text.shown.toList).1).shown =
          t.text.shown := by
        rw [Text.shown_ofPoints, hpoints, String.ofList_toList]
      rw [Token.restoreAll, List.map_cons, List.map_cons, ih hleft]
      exact congrArg (fun shown => (t.kind, shown) :: _) hshown

/-- The tokens of a text are shown as the tokens of the text that is shown for it, and have their
kinds. -/
theorem map_shown_tokenizeText (padding : Padding) (s : Text) :
    ((tokenizeText padding s).map fun t => (t.kind, t.text.shown)) =
      (tokenize padding s.shown).map fun t => (t.kind, t.text.shown) := by
  cases s with
  | plain source => rfl
  | wide w =>
      apply map_shown_restoreAll
      intro p hp
      simpa using (List.mem_filter.1 hp).2

end SchemeLexer
