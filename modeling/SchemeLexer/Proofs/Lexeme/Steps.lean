import Mathlib.Tactic.SplitIfs
import SchemeLexer.Lexeme.Padding
import SchemeLexer.Proofs.Lexeme.Grammar
/-!
# The steps of a scan

What one character does to a scan, by the part that the character plays: it goes on with the
lexeme being read, or it ends that lexeme and perhaps is one itself. What is finished is never
looked at again, and outside strings a scan that ends its lexeme early reads on as if it had
started afresh.
-/

namespace SchemeLexer

open Lexeme

namespace Scan

/-! ## Runs -/

@[simp] theorem extend_nil (padded : Bool) (s : Scan) : s.extend padded [] = s := rfl

@[simp] theorem extend_cons (padded : Bool) (s : Scan) (c : Char) (text : List Char) :
    s.extend padded (c :: text) = (s.step padded c).extend padded text := rfl

@[simp] theorem extend_append (padded : Bool) (s : Scan) (text more : List Char) :
    s.extend padded (text ++ more) = (s.extend padded text).extend padded more := by
  simp [extend]

/-! ## Single steps -/

/-- A double quote is never whitespace and never set apart, so that the character which leaves a
string stays in the lexeme. -/
theorem step_of_inside (padded : Bool) {s : Scan} (c : Char) (h : s.mode ≠ .outside) :
    s.step padded c = ⟨s.mode.next c, c :: s.piece, s.finished⟩ := by
  obtain ⟨mode, piece, finished⟩ := s
  cases mode with
  | outside => exact absurd rfl h
  | inString =>
      by_cases hquote : c = '"'
      · subst hquote
        have hblank : Charset.isWhitespace '"' = false := by decide
        simp [step, Mode.next, hblank]
      · by_cases hslash : c = '\\' <;> simp [step, Mode.next, hquote, hslash]
  | escaped => rfl

theorem step_quote (padded : Bool) {s : Scan} (h : s.mode = .outside) :
    s.step padded '"' = ⟨.inString, '"' :: s.piece, s.finished⟩ := by
  simp [step, h, Mode.next]

theorem step_plain (padded : Bool) {s : Scan} {c : Char} (h : s.mode = .outside)
    (hc : Plain c) : s.step padded c = ⟨.outside, c :: s.piece, s.finished⟩ := by
  obtain ⟨hblank, hopening, hclosing, hquotation, hquote⟩ := hc
  simp [step, h, Mode.next, hblank, hopening, hclosing, hquotation, hquote]

def settled (s : Scan) : Scan := ⟨.outside, [], s.flushed⟩

@[simp] theorem lexemes_settled (s : Scan) : s.settled.lexemes = s.lexemes := rfl

theorem isWhitespace_ne_quote {c : Char} (h : Charset.isWhitespace c = true) : c ≠ '"' := by
  rintro rfl
  exact absurd h (by decide)

theorem step_blank (padded : Bool) {s : Scan} {c : Char} (h : s.mode = .outside)
    (hc : Charset.isWhitespace c = true) : s.step padded c = s.settled := by
  simp [step, h, Mode.next, isWhitespace_ne_quote hc, hc, settled]

theorem step_opening {s : Scan} (h : s.mode = .outside) :
    s.step true '(' = ⟨.outside, [], ('(' :: s.piece).reverse :: s.finished⟩ := by
  have hblank : Charset.isWhitespace '(' = false := by decide
  simp [step, h, Mode.next, hblank]

theorem step_standalone {s : Scan} {c : Char} (h : s.mode = .outside) (hc : Standalone c) :
    s.step true c = ⟨.outside, [], [c] :: s.flushed⟩ := by
  have hclosing : Charset.isWhitespace ')' = false := by decide
  have hquotation : Charset.isWhitespace '\'' = false := by decide
  rcases hc with rfl | rfl
  · simp [step, h, Mode.next, hclosing]
  · simp [step, h, Mode.next, hquotation]

/-- Every character outside strings plays one of five parts. -/
theorem char_cases (c : Char) :
    Charset.isWhitespace c = true ∨ c = '(' ∨ Standalone c ∨ c = '"' ∨ Plain c := by
  unfold Standalone Plain
  grind

/-- Everything that one character can do to a scan which sets delimiters apart. -/
theorem step_cases (s : Scan) (c : Char) :
    ((s.mode = .outside → Plain c ∨ c = '"') ∧
      s.step true c = ⟨s.mode.next c, c :: s.piece, s.finished⟩) ∨
    (s.mode = .outside ∧ Charset.isWhitespace c = true ∧ s.step true c = s.settled) ∨
    (s.mode = .outside ∧ c = '(' ∧
      s.step true c = ⟨.outside, [], ('(' :: s.piece).reverse :: s.finished⟩) ∨
    (s.mode = .outside ∧ Standalone c ∧ s.step true c = ⟨.outside, [], [c] :: s.flushed⟩) := by
  by_cases h : s.mode = .outside
  · rcases char_cases c with hc | rfl | hc | rfl | hc
    · exact Or.inr (Or.inl ⟨h, hc, step_blank true h hc⟩)
    · exact Or.inr (Or.inr (Or.inl ⟨h, rfl, step_opening h⟩))
    · exact Or.inr (Or.inr (Or.inr ⟨h, hc, step_standalone h hc⟩))
    · refine Or.inl ⟨fun _ => Or.inr rfl, ?_⟩
      rw [step_quote true h, h]
      rfl
    · refine Or.inl ⟨fun _ => Or.inl hc, ?_⟩
      rw [step_plain true h hc, h, hc.next_outside]
  · exact Or.inl ⟨fun hout => absurd hout h, step_of_inside true c h⟩

/-- What one character does to a scan that sets delimiters apart or does not: it goes on with the
lexeme being read, or it ends a lexeme, and then no string is open. -/
theorem step_forms (padded : Bool) (s : Scan) (c : Char) :
    s.step padded c = ⟨s.mode.next c, c :: s.piece, s.finished⟩ ∨
    s.mode = .outside ∧ s.mode.next c = .outside ∧
      (s.step padded c = s.settled ∨
        s.step padded c = ⟨.outside, [], (c :: s.piece).reverse :: s.finished⟩ ∨
        s.step padded c = ⟨.outside, [], [c] :: s.flushed⟩) := by
  by_cases h : s.mode = .outside
  · by_cases hquote : c = '"'
    · subst hquote
      rw [step_quote padded h, h]
      exact Or.inl rfl
    · have hnext : s.mode.next c = .outside := by simp [h, Mode.next, hquote]
      simp only [step, hnext]
      split_ifs
      · exact Or.inr ⟨h, trivial, Or.inl rfl⟩
      · exact Or.inr ⟨h, trivial, Or.inr (Or.inl rfl)⟩
      · exact Or.inr ⟨h, trivial, Or.inr (Or.inr rfl)⟩
      · exact Or.inl rfl
  · exact Or.inl (step_of_inside padded c h)

theorem flushed_mk (m : Mode) {piece : List Char} (finished : List (List Char))
    (hpiece : piece ≠ []) :
    (⟨m, piece, finished⟩ : Scan).flushed = piece.reverse :: finished := by
  cases piece with
  | nil => exact absurd rfl hpiece
  | cons c piece => rfl

theorem lexemes_mk (m : Mode) {piece : List Char} (finished : List (List Char))
    (hpiece : piece ≠ []) :
    (⟨m, piece, finished⟩ : Scan).lexemes = finished.reverse ++ [piece.reverse] := by
  rw [lexemes, flushed_mk m finished hpiece, List.reverse_cons]

/-- The lexemes, the unfinished one included, under a map that skips the empty text. -/
theorem flatMap_lexemes {α : Type} (f : List Char → List α) (hf : f [] = []) (s : Scan) :
    s.lexemes.flatMap f = s.finished.reverse.flatMap f ++ f s.piece.reverse := by
  obtain ⟨m, piece, finished⟩ := s
  by_cases hpiece : piece = []
  · subst hpiece
    simp [lexemes, flushed, hf]
  · rw [lexemes_mk m finished hpiece]
    simp

/-! ## The mode of a run -/

theorem mode_step (padded : Bool) (s : Scan) (c : Char) :
    (s.step padded c).mode = s.mode.next c := by
  unfold step
  cases hnext : s.mode.next c with
  | inString => rfl
  | escaped => rfl
  | outside =>
      dsimp only
      split_ifs <;> rfl

theorem mode_extend (padded : Bool) (s : Scan) (text : List Char) :
    (s.extend padded text).mode = s.mode.after text := by
  induction text generalizing s with
  | nil => rfl
  | cons c text ih => rw [extend_cons, ih, mode_step, Mode.after_cons]

/-- The mode of a scan is that after the lexeme being read: where a lexeme begins, the scan is
outside strings. -/
def Tracks (s : Scan) : Prop :=
  Mode.outside.after s.piece.reverse = s.mode

theorem tracks_start : start.Tracks := rfl

theorem Tracks.step {s : Scan} (h : s.Tracks) (c : Char) : (s.step true c).Tracks := by
  rcases s.step_cases c with ⟨_, hstep⟩ | ⟨_, _, hstep⟩ | ⟨_, _, hstep⟩ | ⟨_, _, hstep⟩
  · rw [hstep, Tracks, List.reverse_cons, Mode.after_append, h]
    rfl
  all_goals
    rw [hstep]
    rfl

/-! ## What is finished stays -/

/-- The scan with lexemes that were finished before it began. -/
def onto (s : Scan) (earlier : List (List Char)) : Scan :=
  ⟨s.mode, s.piece, s.finished ++ earlier⟩

theorem flushed_onto (s : Scan) (earlier : List (List Char)) :
    (s.onto earlier).flushed = s.flushed ++ earlier := by
  obtain ⟨mode, piece, finished⟩ := s
  cases piece <;> rfl

theorem step_onto (padded : Bool) (s : Scan) (earlier : List (List Char)) (c : Char) :
    (s.onto earlier).step padded c = (s.step padded c).onto earlier := by
  unfold step
  rw [flushed_onto]
  cases hnext : s.mode.next c with
  | inString => simp [onto, hnext]
  | escaped => simp [onto, hnext]
  | outside =>
      simp only [onto, hnext]
      split_ifs <;> rfl

theorem extend_onto (padded : Bool) (s : Scan) (earlier : List (List Char))
    (text : List Char) :
    (s.onto earlier).extend padded text = (s.extend padded text).onto earlier := by
  induction text generalizing s with
  | nil => rfl
  | cons c text ih => rw [extend_cons, extend_cons, step_onto, ih]

theorem lexemes_onto (s : Scan) (earlier : List (List Char)) :
    (s.onto earlier).lexemes = earlier.reverse ++ s.lexemes := by
  rw [lexemes, flushed_onto, List.reverse_append, lexemes]

/-- Outside strings and with no lexeme begun, a scan reads on as with a text of its own. -/
theorem lexemes_extend_outside (padded : Bool) (earlier : List (List Char))
    (text : List Char) :
    ((⟨.outside, [], earlier⟩ : Scan).extend padded text).lexemes =
      earlier.reverse ++ scan padded text := by
  have hstart : (⟨.outside, [], earlier⟩ : Scan) = start.onto earlier := rfl
  rw [hstart, extend_onto, lexemes_onto]
  rfl

end Scan

/-! ## Reading on after the end of a lexeme -/

open Scan

theorem scan_append (padded : Bool) (text more : List Char) :
    scan padded (text ++ more) =
      ((start.extend padded text).extend padded more).lexemes := by
  rw [scan, extend_append]

theorem mode_extend_start (padded : Bool) (text : List Char) :
    (start.extend padded text).mode = Mode.outside.after text :=
  mode_extend padded start text

theorem scan_append_blank (padded : Bool) {text : List Char} {c : Char} (more : List Char)
    (htext : Mode.outside.after text = .outside) (hc : Charset.isWhitespace c = true) :
    scan padded (text ++ c :: more) = scan padded text ++ scan padded more := by
  rw [scan_append, extend_cons, step_blank padded (by rw [mode_extend_start, htext]) hc,
    settled, lexemes_extend_outside]
  rfl

theorem scan_append_standalone {text : List Char} {c : Char} (more : List Char)
    (htext : Mode.outside.after text = .outside) (hc : Standalone c) :
    scan true (text ++ c :: more) = scan true text ++ [c] :: scan true more := by
  rw [scan_append, extend_cons, step_standalone (by rw [mode_extend_start, htext]) hc,
    lexemes_extend_outside, List.reverse_cons, List.append_assoc]
  rfl

@[simp] theorem scan_nil (padded : Bool) : scan padded [] = [] := rfl

theorem scan_blank_cons (padded : Bool) {c : Char} (more : List Char)
    (hc : Charset.isWhitespace c = true) : scan padded (c :: more) = scan padded more := by
  have hstart : Mode.outside.after [] = .outside := rfl
  simpa using scan_append_blank padded more hstart hc

theorem scan_opening_cons (more : List Char) :
    scan true ('(' :: more) = ['('] :: scan true more := by
  rw [scan, extend_cons, step_opening rfl, lexemes_extend_outside]
  rfl

theorem scan_standalone_cons {c : Char} (more : List Char) (hc : Standalone c) :
    scan true (c :: more) = [c] :: scan true more := by
  have hstart : Mode.outside.after [] = .outside := rfl
  simpa using scan_append_standalone more hstart hc

/-! ## Texts and their characters -/

theorem split_eq_iff {padding : Padding} {source : String} {lexemes : List String} :
    split padding source = lexemes ↔
      splitChars padding source.toList = lexemes.map String.toList := by
  unfold split
  constructor
  · rintro rfl
    simp [Function.comp_def]
  · intro h
    rw [h]
    simp [Function.comp_def]

end SchemeLexer
