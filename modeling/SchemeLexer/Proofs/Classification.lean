import Mathlib.Tactic.SplitIfs
import SchemeLexer.Classification
/-!
# What the rules decide

The ordered rules as one chain of decisions, from which the lexemes of a kind can be read off.
-/

namespace SchemeLexer

theorem classifyChars_eq (lexeme : List Char) :
    classifyChars lexeme =
      match Rule.delimiters.lookup lexeme with
      | some kind => kind
      | none =>
          if Literal.isBoolean lexeme then .boolean
          else if Literal.isCharacter lexeme then .character
          else if Literal.isString lexeme then .string
          else if Numeral.accepts lexeme then .number
          else if Identifier.accepts lexeme then .identifier
          else .illegal := by
  simp only [classifyChars, Rule.firstKind, Rule.all, List.findSome?_cons, Rule.kind?]
  cases Rule.delimiters.lookup lexeme with
  | some kind => rfl
  | none =>
      dsimp only
      split_ifs <;> rfl

theorem mem_delimiters_of_lookup {lexeme : List Char} {kind : Kind}
    (h : Rule.delimiters.lookup lexeme = some kind) : (lexeme, kind) ∈ Rule.delimiters := by
  obtain ⟨before, after, heq, _⟩ := List.lookup_eq_some_iff.1 h
  rw [heq]
  simp

/-- A kind that no other rule gives is one of a delimiter. -/
theorem mem_delimiters_of_classifyChars {lexeme : List Char} {kind : Kind}
    (h : classifyChars lexeme = kind)
    (hkind : kind ∉ [.boolean, .character, .string, .number, .identifier, .illegal]) :
    (lexeme, kind) ∈ Rule.delimiters := by
  rw [classifyChars_eq] at h
  cases hlookup : Rule.delimiters.lookup lexeme with
  | some found =>
      rw [hlookup] at h
      subst h
      exact mem_delimiters_of_lookup hlookup
  | none =>
      exfalso
      apply hkind
      rw [← h, hlookup]
      dsimp only
      split_ifs <;> simp

theorem classifyChars_eq_lparen {lexeme : List Char} (h : classifyChars lexeme = .lparen) :
    lexeme = ['('] := by
  simpa [Rule.delimiters] using mem_delimiters_of_classifyChars h (by decide)

theorem classifyChars_eq_rparen {lexeme : List Char} (h : classifyChars lexeme = .rparen) :
    lexeme = [')'] := by
  simpa [Rule.delimiters] using mem_delimiters_of_classifyChars h (by decide)

end SchemeLexer
