import SchemeLexer.Lexeme.Scan
/-!
# The grammar of lexemes

The texts that a lexeme can have, said without reference to a scan. Outside a string literal a
lexeme is made of plain characters and whole string literals; it may end in an opening
parenthesis, and a source may end before a string literal does. The lemmas relate each part of
the grammar to the modes that it leads through.
-/

namespace SchemeLexer

def Mode.after (m : Mode) (text : List Char) : Mode :=
  text.foldl Mode.next m

namespace Mode

@[simp] theorem after_nil (m : Mode) : m.after [] = m := rfl

@[simp] theorem after_cons (m : Mode) (c : Char) (text : List Char) :
    m.after (c :: text) = (m.next c).after text := rfl

@[simp] theorem after_append (m : Mode) (text more : List Char) :
    m.after (text ++ more) = (m.after text).after more := by
  simp [after]

end Mode

namespace Lexeme

/-! ## Parts of a lexeme -/

/-- The items between the quotes of a string literal: a character other than a quote and a
backslash, or a backslash with the one character that it escapes. -/
inductive Items : List Char → Prop where
  | nil : Items []
  | plain {c : Char} {rest : List Char} :
      c ≠ '"' → c ≠ '\\' → Items rest → Items (c :: rest)
  | escape {c : Char} {rest : List Char} : Items rest → Items ('\\' :: c :: rest)

def StringLiteral (text : List Char) : Prop :=
  ∃ body, Items body ∧ text = '"' :: (body ++ ['"'])

/-- A character that is part of a lexeme and nothing more: no whitespace, no parenthesis and no
quote of either kind. -/
def Plain (c : Char) : Prop :=
  Charset.isWhitespace c = false ∧ c ≠ '(' ∧ c ≠ ')' ∧ c ≠ '\'' ∧ c ≠ '"'

instance : DecidablePred Plain := fun _ => inferInstanceAs (Decidable (_ ∧ _))

/-- A character that is a lexeme by itself wherever it stands outside strings. -/
def Standalone (c : Char) : Prop :=
  c = ')' ∨ c = '\''

instance : DecidablePred Standalone := fun _ => inferInstanceAs (Decidable (_ ∨ _))

/-- Plain characters and whole string literals in any order. -/
inductive Units : List Char → Prop where
  | nil : Units []
  | plain {c : Char} {rest : List Char} : Plain c → Units rest → Units (c :: rest)
  | literal {text rest : List Char} :
      StringLiteral text → Units rest → Units (text ++ rest)

/-! ## Whole lexemes -/

/-- A lexeme in which every string literal is closed. -/
inductive Closed : List Char → Prop where
  | standalone {c : Char} : Standalone c → Closed [c]
  | units {text : List Char} : Units text → text ≠ [] → Closed text
  | opening {text : List Char} : Units text → Closed (text ++ ['('])

/-- A lexeme whose last string literal is not closed. It may end in a backslash that escapes
nothing. -/
def Open (text : List Char) : Prop :=
  ∃ units items tail, Units units ∧ Items items ∧ (tail = [] ∨ tail = ['\\']) ∧
    text = units ++ '"' :: (items ++ tail)

/-- What has been read of a lexeme when the scan stands in a mode. -/
def Partial : Mode → List Char → Prop
  | .outside, text => Units text
  | .inString, text =>
      ∃ units items, Units units ∧ Items items ∧ text = units ++ '"' :: items
  | .escaped, text =>
      ∃ units items, Units units ∧ Items items ∧ text = units ++ '"' :: (items ++ ['\\'])

/-! ## Building up parts -/

theorem Items.append {items more : List Char} (hitems : Items items) (hmore : Items more) :
    Items (items ++ more) := by
  induction hitems with
  | nil => exact hmore
  | plain hquote hslash _ ih => exact Items.plain hquote hslash ih
  | escape _ ih => exact Items.escape ih

theorem Units.append {units more : List Char} (hunits : Units units) (hmore : Units more) :
    Units (units ++ more) := by
  induction hunits with
  | nil => exact hmore
  | plain hplain _ ih => exact Units.plain hplain ih
  | literal hliteral _ ih =>
      rw [List.append_assoc]
      exact Units.literal hliteral ih

theorem Units.of_plain {text : List Char} (h : ∀ c ∈ text, Plain c) : Units text := by
  induction text with
  | nil => exact Units.nil
  | cons c rest ih =>
      apply Units.plain (h c (by simp))
      exact ih fun d hd => h d (by simp [hd])

theorem Units.of_all_plain {text : List Char} (h : text.all (fun c => decide (Plain c)) = true) :
    Units text := by
  apply Units.of_plain
  intro c hc
  exact of_decide_eq_true (List.all_eq_true.1 h c hc)

theorem Units.of_literal {text : List Char} (h : StringLiteral text) : Units text := by
  simpa using Units.literal h Units.nil

/-! ## The modes that a part leads through -/

theorem Plain.next_outside {c : Char} (h : Plain c) : Mode.outside.next c = .outside := by
  obtain ⟨_, _, _, _, hquote⟩ := h
  simp [Mode.next, hquote]

theorem Items.after_inString {items : List Char} (h : Items items) :
    Mode.inString.after items = .inString := by
  induction h with
  | nil => rfl
  | plain hquote hslash _ ih => simpa [Mode.next, hquote, hslash] using ih
  | escape _ ih => simpa [Mode.next] using ih

theorem Units.after_outside {units : List Char} (h : Units units) :
    Mode.outside.after units = .outside := by
  induction h with
  | nil => rfl
  | plain hplain _ ih => rw [Mode.after_cons, hplain.next_outside, ih]
  | literal hliteral _ ih =>
      obtain ⟨items, hitems, rfl⟩ := hliteral
      have hopen : Mode.outside.next '"' = .inString := rfl
      have hclose : Mode.inString.next '"' = .outside := rfl
      simp [hopen, hitems.after_inString, hclose, ih]

/-- One more character of a lexeme. Outside strings it has to be plain or a quote; inside, any
character goes on with the string, and an unescaped quote closes it. -/
theorem Partial.snoc {m : Mode} {text : List Char} {c : Char} (h : Partial m text)
    (hc : m = .outside → Plain c ∨ c = '"') : Partial (m.next c) (text ++ [c]) := by
  cases m with
  | outside =>
      rcases hc rfl with hplain | rfl
      · rw [hplain.next_outside]
        exact Units.append h (Units.plain hplain Units.nil)
      · exact ⟨text, [], h, Items.nil, rfl⟩
  | inString =>
      obtain ⟨units, items, hunits, hitems, rfl⟩ := h
      by_cases hquote : c = '"'
      · subst hquote
        have hliteral : StringLiteral ('"' :: (items ++ ['"'])) := ⟨items, hitems, rfl⟩
        have hwhole := hunits.append (Units.of_literal hliteral)
        simpa [Mode.next, Partial] using hwhole
      · by_cases hslash : c = '\\'
        · subst hslash
          exact ⟨units, items, hunits, hitems, by simp⟩
        · have hmore := hitems.append (Items.plain hquote hslash Items.nil)
          simp only [Mode.next, hquote, hslash, if_false]
          exact ⟨units, items ++ [c], hunits, hmore, by simp⟩
  | escaped =>
      obtain ⟨units, items, hunits, hitems, rfl⟩ := h
      have hmore := hitems.append (Items.escape (c := c) Items.nil)
      exact ⟨units, items ++ ['\\', c], hunits, hmore, by simp⟩

end Lexeme

end SchemeLexer
