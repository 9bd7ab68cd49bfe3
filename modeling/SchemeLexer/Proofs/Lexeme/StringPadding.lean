import Mathlib.Data.List.Basic
import SchemeLexer.Proofs.Lexeme.Inside
/-!
# Padding everywhere

Blanks written around every delimiter change the lexemes only inside strings: the scan of the
padded text follows the scan of the text itself, one character of the text at a time, with its
lexemes rewritten by `padStrings`. A delimiter that a backslash escapes is no exception, since its
first blank takes the escape and the rest stays in the string.
-/

namespace SchemeLexer

namespace Lexeme

def Delimiter (c : Char) : Prop :=
  c = '(' ∨ c = ')' ∨ c = '\''

/-- What is written for a character: inside a string the character set apart by blanks if it is a
delimiter, and anywhere else the character alone. -/
def padInside (p : Char × Bool) : List Char :=
  if p.2 then spaced p.1 else [p.1]

/-- A text with every delimiter inside a string set apart by blanks, and everything else as it
is. -/
def padStrings (text : List Char) : List Char :=
  (located false text).flatMap padInside

/-! ## Rewriting one text -/

theorem spaced_of_not_delimiter {c : Char} (h : ¬ Delimiter c) : spaced c = [c] := by
  simp only [Delimiter, not_or] at h
  obtain ⟨hopening, hclosing, hquotation⟩ := h
  simp [spaced, hopening, hclosing, hquotation]

theorem length_spaced_pos (c : Char) : 0 < (spaced c).length := by
  unfold spaced
  split_ifs <;> simp

theorem length_spaced_eq_one_iff (c : Char) : (spaced c).length = 1 ↔ ¬ Delimiter c := by
  constructor
  · rintro hlength (rfl | rfl | rfl) <;> simp [spaced] at hlength
  · intro h
    rw [spaced_of_not_delimiter h, List.length_singleton]

@[simp] theorem padStrings_nil : padStrings [] = [] := rfl

theorem padStrings_snoc (text : List Char) (c : Char) :
    padStrings (text ++ [c]) =
      padStrings text ++ if (Mode.outside.after text).inside then spaced c else [c] := by
  simp [padStrings, located_false, Mode.located_append, Mode.located, padInside]

theorem padStrings_singleton (c : Char) : padStrings [c] = [c] := by
  simp [padStrings, located, padInside]

theorem padStrings_ne_nil {text : List Char} (h : text ≠ []) : padStrings text ≠ [] := by
  cases text with
  | nil => exact absurd rfl h
  | cons c text => simp [padStrings, located, padInside]

end Lexeme

open Lexeme

/-! ## The two scans side by side -/

namespace Scan

def respaced (s : Scan) : Scan :=
  ⟨s.mode, (padStrings s.piece.reverse).reverse, s.finished.map padStrings⟩

theorem flushed_respaced (s : Scan) : s.respaced.flushed = s.flushed.map padStrings := by
  obtain ⟨m, piece, finished⟩ := s
  by_cases hpiece : piece = []
  · subst hpiece
    rfl
  · have hpadded : (padStrings piece.reverse).reverse ≠ [] := by
      simpa using padStrings_ne_nil (by simpa using hpiece)
    rw [respaced, flushed_mk m _ hpadded, flushed_mk m _ hpiece]
    simp

theorem settled_respaced (s : Scan) : s.respaced.settled = s.settled.respaced := by
  rw [settled, flushed_respaced]
  rfl

theorem lexemes_respaced (s : Scan) : s.respaced.lexemes = s.lexemes.map padStrings := by
  rw [lexemes, flushed_respaced, lexemes, List.map_reverse]

theorem step_unpadded {s : Scan} {c : Char} (h : s.mode = .outside)
    (hblank : Charset.isWhitespace c = false) (hquote : c ≠ '"') :
    s.step false c = ⟨.outside, c :: s.piece, s.finished⟩ := by
  simp [step, h, Mode.next, hblank, hquote]

/-- Inside a string the blanks around a delimiter belong to the string, and an escape before the
delimiter is used up by the first of them. -/
theorem extend_spaced_inside {s : Scan} (padded : Bool) (c : Char) (h : s.mode ≠ .outside) :
    s.extend padded (spaced c) = ⟨s.mode.next c, (spaced c).reverse ++ s.piece, s.finished⟩ := by
  by_cases hc : Delimiter c
  · obtain ⟨m, piece, finished⟩ := s
    cases m with
    | outside => exact absurd rfl h
    | inString => rcases hc with rfl | rfl | rfl <;> rfl
    | escaped => rcases hc with rfl | rfl | rfl <;> rfl
  · rw [spaced_of_not_delimiter hc, extend_cons, step_of_inside padded c h]
    rfl

theorem respaced_mk {s : Scan} (h : s.Tracks) (m : Mode) (c : Char) :
    respaced ⟨m, c :: s.piece, s.finished⟩ =
      ⟨m, (if s.mode.inside then spaced c else [c]).reverse ++ s.respaced.piece,
        s.respaced.finished⟩ := by
  simp only [respaced, List.reverse_cons, padStrings_snoc, List.reverse_append]
  rw [h]

theorem not_delimiter_of_isWhitespace {c : Char} (h : Charset.isWhitespace c = true) :
    ¬ Delimiter c := by
  rintro (rfl | rfl | rfl) <;> exact absurd h (by decide)

theorem not_delimiter_of_plain {c : Char} (h : Plain c) : ¬ Delimiter c := by
  obtain ⟨_, hopening, hclosing, hquotation, _⟩ := h
  simp [Delimiter, hopening, hclosing, hquotation]

/-- Outside strings the blanks around a delimiter do to a scan that knows no delimiters what the
delimiter alone does to one that sets delimiters apart. -/
theorem extend_spaced_outside {s : Scan} (h : s.mode = .outside) (c : Char) :
    s.extend false (spaced c) = s.step true c := by
  have hblank : Charset.isWhitespace ' ' = true := by decide
  rcases char_cases c with hc | rfl | hc | rfl | hc
  · rw [spaced_of_not_delimiter (not_delimiter_of_isWhitespace hc), extend_cons, extend_nil,
      step_blank false h hc, step_blank true h hc]
  · -- the blank after the parenthesis ends the lexeme that the parenthesis closes
    have hspaced : spaced '(' = ['(', ' '] := by decide
    rw [hspaced, extend_cons, step_unpadded h (by decide) (by decide), extend_cons,
      step_blank false rfl hblank, extend_nil, settled, flushed_mk _ _ (by simp), step_opening h]
  · have hspaced : spaced c = [' ', c, ' '] := by rcases hc with rfl | rfl <;> decide
    have hplain : Charset.isWhitespace c = false := by rcases hc with rfl | rfl <;> decide
    have hquote : c ≠ '"' := by rcases hc with rfl | rfl <;> decide
    rw [hspaced, extend_cons, step_blank false h hblank, extend_cons,
      step_unpadded rfl hplain hquote, extend_cons, step_blank false rfl hblank, extend_nil,
      settled, flushed_mk _ _ (by simp), step_standalone h hc]
    rfl
  · have hspaced : spaced '"' = ['"'] := by decide
    rw [hspaced, extend_cons, extend_nil, step_quote false h, step_quote true h]
  · rw [spaced_of_not_delimiter (not_delimiter_of_plain hc), extend_cons, extend_nil,
      step_plain false h hc, step_plain true h hc]

theorem step_respaced {s : Scan} (h : s.Tracks) (hmode : s.mode = .outside) (c : Char) :
    s.respaced.step true c = (s.step true c).respaced := by
  have hrespaced : s.respaced.mode = .outside := hmode
  have hinside : s.mode.inside = false := by rw [hmode]; rfl
  rcases char_cases c with hc | rfl | hc | rfl | hc
  · rw [step_blank true hrespaced hc, step_blank true hmode hc, settled_respaced]
  · have hpiece := padStrings_snoc s.piece.reverse '('
    rw [h, hinside] at hpiece
    rw [step_opening hrespaced, step_opening hmode]
    simp [respaced, hpiece]
  · rw [step_standalone hrespaced hc, step_standalone hmode hc, flushed_respaced]
    simp [respaced, padStrings_singleton]
  · rw [step_quote true hrespaced, step_quote true hmode, respaced_mk h, hinside]
    rfl
  · rw [step_plain true hrespaced hc, step_plain true hmode hc, respaced_mk h, hinside]
    rfl

theorem extend_spaced {s : Scan} (h : s.Tracks) (c : Char) :
    s.respaced.extend false (spaced c) = (s.step true c).respaced := by
  by_cases hmode : s.mode = .outside
  · have hrespaced : s.respaced.mode = .outside := hmode
    rw [extend_spaced_outside hrespaced, step_respaced h hmode]
  · have hrespaced : s.respaced.mode ≠ .outside := hmode
    have hinside : s.mode.inside = true := by simpa [Mode.inside] using hmode
    rw [extend_spaced_inside false c hrespaced, step_of_inside true c hmode, respaced_mk h,
      hinside]
    rfl

theorem extend_padEverywhere {s : Scan} (h : s.Tracks) (text : List Char) :
    s.respaced.extend false (padEverywhere text) = (s.extend true text).respaced := by
  induction text generalizing s with
  | nil => rfl
  | cons c text ih =>
      have hrest := ih (h.step c)
      rw [padEverywhere, List.flatMap_cons, extend_append, extend_spaced h, extend_cons]
      exact hrest

end Scan

theorem scan_padEverywhere (text : List Char) :
    scan false (padEverywhere text) = (scan true text).map padStrings := by
  have hrun := Scan.extend_padEverywhere Scan.tracks_start text
  rw [scan, scan, ← Scan.lexemes_respaced, ← hrun]
  rfl

-- The backslash escapes the first blank in place of the parenthesis, and the string still closes.
example : scan false (padEverywhere "x\"\\)\" y".toList) = ["x\"\\ ) \"".toList, "y".toList] := by
  decide

/-! ## Where the two paddings agree -/

theorem length_padInside_pos (p : Char × Bool) : 0 < (padInside p).length := by
  unfold padInside
  split_ifs
  · exact length_spaced_pos p.1
  · simp

theorem length_le_flatMap_padInside (ps : List (Char × Bool)) :
    ps.length ≤ (ps.flatMap padInside).length := by
  induction ps with
  | nil => simp
  | cons p ps ih =>
      have hpos := length_padInside_pos p
      rw [List.flatMap_cons, List.length_append, List.length_cons]
      omega

theorem length_padInside_of_length_eq {ps : List (Char × Bool)}
    (h : (ps.flatMap padInside).length = ps.length) {p : Char × Bool} (hp : p ∈ ps) :
    (padInside p).length = 1 := by
  induction ps with
  | nil => simp at hp
  | cons q ps ih =>
      have hpos := length_padInside_pos q
      have hle := length_le_flatMap_padInside ps
      rw [List.flatMap_cons, List.length_append, List.length_cons] at h
      rcases List.mem_cons.1 hp with rfl | hp
      · omega
      · exact ih (by omega) hp

theorem padInside_eq_singleton {p : Char × Bool} (h : p.2 = true → ¬ Delimiter p.1) :
    padInside p = [p.1] := by
  unfold padInside
  split_ifs with hinside
  · exact spaced_of_not_delimiter (h hinside)
  · rfl

theorem mem_quoted {text : List Char} {c : Char} :
    c ∈ quoted text ↔ (c, true) ∈ located false text := by
  simp [quoted]

/-- A text stays as it is exactly if there is no delimiter to set apart: every character is
written at least once, so that an added blank shows in the length. -/
theorem padStrings_eq_self_iff (text : List Char) :
    padStrings text = text ↔ ∀ c ∈ quoted text, ¬ Delimiter c := by
  have hfst := map_fst_located_false text
  constructor
  · intro heq c hc
    have hlength : ((located false text).flatMap padInside).length =
        (located false text).length := by
      rw [← padStrings, heq, ← List.length_map Prod.fst, hfst]
    have hone := length_padInside_of_length_eq hlength (mem_quoted.1 hc)
    exact (length_spaced_eq_one_iff c).1 hone
  · intro hnone
    have hsame : ∀ p ∈ located false text, padInside p = [p.1] := by
      rintro ⟨c, inside⟩ hp
      apply padInside_eq_singleton
      rintro rfl
      exact hnone c (mem_quoted.2 hp)
    calc
      padStrings text = (located false text).flatMap fun p => [p.1] :=
        List.flatMap_congr hsame
      _ = (located false text).map Prod.fst := List.map_eq_flatMap.symm
      _ = text := hfst

theorem map_padStrings_scan_iff (text : List Char) :
    (scan true text).map padStrings = scan true text ↔ ∀ c ∈ quoted text, ¬ Delimiter c := by
  have hsame : (scan true text).map padStrings = scan true text ↔
      ∀ lexeme ∈ scan true text, padStrings lexeme = lexeme := by
    simpa using List.map_inj_left (f := padStrings) (g := id) (l := scan true text)
  rw [hsame, ← flatMap_quoted_scan text]
  constructor
  · intro h c hc
    obtain ⟨lexeme, hlexeme, hc⟩ := List.mem_flatMap.1 hc
    exact (padStrings_eq_self_iff lexeme).1 (h lexeme hlexeme) c hc
  · intro h lexeme hlexeme
    apply (padStrings_eq_self_iff lexeme).2
    intro c hc
    exact h c (List.mem_flatMap.2 ⟨lexeme, hlexeme, hc⟩)

/-- Padding everywhere gives the same lexemes as padding outside strings, each with blanks written
around the delimiters inside its strings. So both give the same number of lexemes, and the same
lexemes exactly if no delimiter of the source lies inside a string. -/
theorem split_everywhere (source : String) :
    split .everywhere source =
        (split .outsideStrings source).map
          (fun lexeme => String.ofList (padStrings lexeme.toList)) ∧
      (split .everywhere source).length = (split .outsideStrings source).length ∧
      (split .everywhere source = split .outsideStrings source ↔
        ∀ c ∈ quoted source.toList, ¬ Delimiter c) := by
  have hscan := scan_padEverywhere source.toList
  have hmap : split .everywhere source =
      (split .outsideStrings source).map
        (fun lexeme => String.ofList (padStrings lexeme.toList)) := by
    simp [split, splitChars, hscan, Function.comp_def]
  refine ⟨hmap, ?_, ?_⟩
  · rw [hmap, List.length_map]
  · rw [split_eq_iff, ← map_padStrings_scan_iff, ← hscan]
    simp [split, splitChars, Function.comp_def]

end SchemeLexer
