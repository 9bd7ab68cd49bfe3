import SchemeLexer.Proofs.Lexeme.Layout
import SchemeLexer.Proofs.Lexeme.StringPadding
import SchemeLexer.Token
/-!
# Sources one after the other

What more text can do to the lexemes of a source, in either padding. It changes none but the last
of them, which it may only make longer, wherever the source is cut: inside a string, after a
backslash, or next to a delimiter. Whitespace outside strings separates the sources altogether.
-/

namespace SchemeLexer

open Lexeme

/-! ## Paddings as scans -/

namespace Padding

/-- Whether the scan itself sets delimiters apart. -/
def padded : Padding → Bool
  | .outsideStrings => true
  | .everywhere => false

def prepared : Padding → List Char → List Char
  | .outsideStrings, text => text
  | .everywhere, text => padEverywhere text

def scanned (padding : Padding) (text : List Char) : Scan :=
  Scan.start.extend padding.padded (padding.prepared text)

theorem splitChars_eq_lexemes (padding : Padding) (text : List Char) :
    splitChars padding text = (padding.scanned text).lexemes := by
  cases padding <;> rfl

theorem prepared_append (padding : Padding) (text more : List Char) :
    padding.prepared (text ++ more) = padding.prepared text ++ padding.prepared more := by
  cases padding with
  | outsideStrings => rfl
  | everywhere => simp [prepared, padEverywhere]

theorem prepared_blank (padding : Padding) {gap : List Char} (h : Blank gap) :
    padding.prepared gap = gap := by
  cases padding with
  | outsideStrings => rfl
  | everywhere =>
      induction gap with
      | nil => rfl
      | cons c gap ih =>
          have hrest : Blank gap := fun d hd => h d (by simp [hd])
          have hc := spaced_of_not_delimiter (Scan.not_delimiter_of_isWhitespace (h c (by simp)))
          have hgap := ih hrest
          rw [prepared, padEverywhere] at hgap ⊢
          rw [List.flatMap_cons, hc, hgap]
          rfl

end Padding

/-! ## What more text can do -/

namespace Lexeme

/-- What more text can make of lexemes: all but the last of them stay as they are, the last one
may go on, and others may follow it. -/
def Continues (lexemes later : List (List Char)) : Prop :=
  ∀ front last, lexemes = front ++ [last] →
    ∃ more rest, later = front ++ (last ++ more) :: rest

theorem continues_append (lexemes more : List (List Char)) :
    Continues lexemes (lexemes ++ more) := by
  rintro front last rfl
  exact ⟨[], more, by simp⟩

theorem continues_last (front : List (List Char)) (last more : List Char) :
    Continues (front ++ [last]) (front ++ [last ++ more]) := by
  intro front' last' heq
  obtain ⟨rfl, hlast⟩ := List.append_inj' heq rfl
  cases hlast
  exact ⟨more, [], rfl⟩

theorem Continues.trans {lexemes later latest : List (List Char)} (h : Continues lexemes later)
    (h' : Continues later latest) : Continues lexemes latest := by
  intro front last heq
  obtain ⟨more, rest, rfl⟩ := h front last heq
  -- what is last by now is either the lexeme that went on or one that follows it
  rcases List.eq_nil_or_concat rest with rfl | ⟨rest, last', rfl⟩
  · obtain ⟨more', rest', rfl⟩ := h' front (last ++ more) rfl
    exact ⟨more ++ more', rest', by simp⟩
  · obtain ⟨more', rest', rfl⟩ := h' (front ++ (last ++ more) :: rest) last' (by simp)
    exact ⟨more, rest ++ (last' ++ more') :: rest', by simp⟩

end Lexeme

namespace Scan

/-- The lexemes after one more character: it belongs to the unfinished lexeme, or it ends that
lexeme and perhaps is one itself. -/
theorem lexemes_step_cases (padded : Bool) (s : Scan) (c : Char) :
    (s.step padded c).lexemes = s.finished.reverse ++ [s.piece.reverse ++ [c]] ∨
    (s.step padded c).lexemes = s.lexemes ∨
    (s.step padded c).lexemes = s.lexemes ++ [[c]] := by
  have hgrown : ∀ m : Mode, (⟨m, c :: s.piece, s.finished⟩ : Scan).lexemes =
      s.finished.reverse ++ [s.piece.reverse ++ [c]] := by
    intro m
    rw [lexemes_mk m _ (by simp), List.reverse_cons]
  unfold step
  cases s.mode.next c with
  | inString => exact Or.inl (hgrown _)
  | escaped => exact Or.inl (hgrown _)
  | outside =>
      dsimp only
      split_ifs
      · exact Or.inr (Or.inl rfl)
      · exact Or.inl (by simp [lexemes, flushed])
      · exact Or.inr (Or.inr (by simp [lexemes, flushed]))
      · exact Or.inl (hgrown _)

theorem continues_step (padded : Bool) (s : Scan) (c : Char) :
    Continues s.lexemes (s.step padded c).lexemes := by
  rcases s.lexemes_step_cases padded c with h | h | h
  · rw [h]
    obtain ⟨m, piece, finished⟩ := s
    by_cases hpiece : piece = []
    · subst hpiece
      exact continues_append _ _
    · rw [lexemes_mk m _ hpiece]
      exact continues_last _ _ _
  · simpa [h] using continues_append s.lexemes []
  · rw [h]
    exact continues_append _ _

theorem continues_extend (padded : Bool) (s : Scan) (text : List Char) :
    Continues s.lexemes (s.extend padded text).lexemes := by
  induction text generalizing s with
  | nil => simpa using continues_append s.lexemes []
  | cons c text ih => exact (s.continues_step padded c).trans (ih _)

end Scan

theorem continues_splitChars (padding : Padding) (text more : List Char) :
    Continues (splitChars padding text) (splitChars padding (text ++ more)) := by
  rw [padding.splitChars_eq_lexemes, padding.splitChars_eq_lexemes, Padding.scanned,
    Padding.scanned, padding.prepared_append, Scan.extend_append]
  exact Scan.continues_extend _ _ _

/-! ## Whitespace between sources -/

theorem scan_append_gap (padded : Bool) {text gap : List Char} (more : List Char)
    (htext : Mode.outside.after text = .outside) (hgap : Blank gap) (hne : gap ≠ []) :
    scan padded (text ++ gap ++ more) = scan padded text ++ scan padded more := by
  cases gap with
  | nil => exact absurd rfl hne
  | cons c gap =>
      have hrest : Blank gap := fun d hd => hgap d (by simp [hd])
      rw [List.append_assoc, List.cons_append,
        scan_append_blank padded _ htext (hgap c (by simp)), scan_blank_append padded hrest]

theorem splitChars_append_gap (padding : Padding) {text gap : List Char} (more : List Char)
    (htext : (padding.scanned text).mode = .outside) (hgap : Blank gap) (hne : gap ≠ []) :
    splitChars padding (text ++ gap ++ more) =
      splitChars padding text ++ splitChars padding more := by
  have hsplit : ∀ text, splitChars padding text = scan padding.padded (padding.prepared text) :=
    padding.splitChars_eq_lexemes
  rw [Padding.scanned, mode_extend_start] at htext
  rw [hsplit, hsplit, hsplit, padding.prepared_append, padding.prepared_append,
    padding.prepared_blank hgap, scan_append_gap _ _ htext hgap hne]

/-- More text leaves all lexemes but the last, and their kinds, as they are, and at most makes the
last one longer. If a source ends outside strings, then whitespace separates its lexemes from
those of the text that follows. -/
theorem split_append_continues (padding : Padding) (source more : String) :
    (∀ front last, split padding source = front ++ [last] →
      ∃ tail rest, split padding (source ++ more) = front ++ (last ++ tail) :: rest) ∧
    (tokenize padding source).dropLast <+: tokenize padding (source ++ more) ∧
    ((padding.scanned source.toList).mode = .outside →
      ∀ gap : String, Blank gap.toList → gap ≠ "" →
        split padding (source ++ gap ++ more) = split padding source ++ split padding more ∧
        tokenize padding (source ++ gap ++ more) =
          tokenize padding source ++ tokenize padding more) := by
  have hcontinues : ∀ front last, split padding source = front ++ [last] →
      ∃ tail rest, split padding (source ++ more) = front ++ (last ++ tail) :: rest := by
    intro front last hsplit
    rw [split_eq_iff, List.map_append] at hsplit
    obtain ⟨tail, rest, hmore⟩ :=
      continues_splitChars padding source.toList more.toList _ _ hsplit
    refine ⟨String.ofList tail, rest.map String.ofList, ?_⟩
    rw [split_eq_iff, String.toList_append, hmore]
    simp [Function.comp_def]
  refine ⟨hcontinues, ?_, ?_⟩
  · rcases List.eq_nil_or_concat (split padding source) with hnil | ⟨front, last, hsplit⟩
    · simp [tokenize, hnil]
    · obtain ⟨tail, rest, hmore⟩ := hcontinues front last (by simpa using hsplit)
      refine ⟨((last ++ tail) :: rest).map Token.ofLexeme, ?_⟩
      rw [tokenize, tokenize, hsplit, hmore]
      simp
  · intro hmode gap hgap hne
    have hnonempty : gap.toList ≠ [] := by simpa using hne
    have hsplit : split padding (source ++ gap ++ more) =
        split padding source ++ split padding more := by
      simp only [split, String.toList_append]
      rw [splitChars_append_gap padding _ hmode hgap hnonempty, List.map_append]
    refine ⟨hsplit, ?_⟩
    rw [tokenize, hsplit, List.map_append]
    rfl

theorem split_append_continues_cut :
    (∃ tail rest, split .everywhere ("a \"(\\" ++ "\")\" b") = ["a"] ++ ("\"( \\" ++ tail) :: rest) ∧
      tokenize .everywhere ("#(\"(\"" ++ "\n " ++ "'x)") =
        tokenize .everywhere "#(\"(\"" ++ tokenize .everywhere "'x)" := by
  refine ⟨(split_append_continues .everywhere "a \"(\\" "\")\" b").1 ["a"] "\"( \\" (by decide), ?_⟩
  exact ((split_append_continues .everywhere "#(\"(\"" "'x)").2.2 (by decide) "\n " (by decide)
    (by decide)).2

end SchemeLexer
