import SchemeLexer.Proofs.Lexeme.StringPadding
/-!
# Padding outside strings

A scan that sets delimiters apart is one pass in place of two: blanks written around the delimiters
outside strings, and then a scan that splits at whitespace alone. Which delimiters get blanks is
decided on the text before any scan; the second pass finds the strings again by itself, and after
each character of the text it stands exactly where the one pass does.
-/

namespace SchemeLexer

namespace Lexeme

/-- What is written for a character: outside strings the character set apart by blanks if it is a
delimiter, and inside a string the character alone. -/
def setApart (p : Char × Bool) : List Char :=
  if p.2 then [p.1] else spaced p.1

/-- A text with every delimiter outside strings set apart by blanks, and everything else as it
is. -/
def padOutside (text : List Char) : List Char :=
  (located false text).flatMap setApart

end Lexeme

open Lexeme

namespace Scan

theorem extend_setApart (s : Scan) (c : Char) :
    s.extend false (setApart (c, s.mode.inside)) = s.step true c := by
  by_cases hmode : s.mode = .outside
  · have hinside : s.mode.inside = false := by rw [hmode]; rfl
    rw [hinside]
    exact extend_spaced_outside hmode c
  · have hinside : s.mode.inside = true := by simpa [Mode.inside] using hmode
    rw [hinside, step_of_inside true c hmode, ← step_of_inside false c hmode]
    rfl

/-- The text is located from the mode in which the scan stands, which both passes keep alike. -/
theorem extend_flatMap_setApart (s : Scan) (text : List Char) :
    s.extend false ((s.mode.located text).flatMap setApart) = s.extend true text := by
  induction text generalizing s with
  | nil => rfl
  | cons c text ih =>
      have hrest := ih (s.step true c)
      rw [mode_step] at hrest
      rw [Mode.located, List.flatMap_cons, extend_append, extend_setApart, extend_cons]
      exact hrest

end Scan

/-- Setting delimiters apart during the scan is writing blanks around them first. -/
theorem scan_padOutside (text : List Char) : scan true text = scan false (padOutside text) := by
  have hrun := Scan.extend_flatMap_setApart Scan.start text
  rw [scan, scan, padOutside, located_false]
  exact congrArg Scan.lexemes hrun.symm

-- A backslash counts inside the string only, and the quotation mark after the string is padded.
example :
    padOutside "\\(\"\\\"(\"'x)".toList = "\\( \"\\\"(\" ' x ) ".toList := by
  decide

end SchemeLexer
