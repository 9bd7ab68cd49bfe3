import Mathlib.Data.List.DropRight
import Mathlib.Data.List.Induction
import SchemeLexer.Proofs.Lexeme.Steps
/-!
# Backslashes in strings

A scan can do with two marks: whether a string is open, and whether a backslash escapes what
follows. The second is toggled by each backslash in a string and taken back by everything else, so
at every place of a text it is the parity of a count: that of the backslashes right before this
place, as far back as the quote that opened the string. A quote closes the string if that count is
even. Nothing outside a string counts.
-/

namespace SchemeLexer

/-! ## Two marks -/

/-- Where a scan stands, as two marks that change independently of each other: a string is open,
and a backslash escapes what follows. -/
structure Marks where
  inString : Bool
  escaped : Bool
  deriving DecidableEq, Repr

namespace Marks

def start : Marks := ⟨false, false⟩

/-- The marks after one more character. A backslash in a string toggles the escape; everything
else ends it, and a double quote that is not escaped toggles the string. -/
def next (m : Marks) (c : Char) : Marks :=
  if c = '\\' && m.inString then ⟨m.inString, !m.escaped⟩
  else ⟨if c = '"' && !m.escaped then !m.inString else m.inString, false⟩

def after (m : Marks) (text : List Char) : Marks :=
  text.foldl next m

theorem after_append (m : Marks) (text more : List Char) :
    m.after (text ++ more) = (m.after text).after more := by
  simp [after]

theorem after_concat (m : Marks) (text : List Char) (c : Char) :
    m.after (text ++ [c]) = (m.after text).next c :=
  m.after_append text [c]

theorem next_closed {c : Char} (h : c ≠ '"') :
    (⟨false, false⟩ : Marks).next c = ⟨false, false⟩ := by
  simp [next, h]

theorem next_slash (escaped : Bool) :
    (⟨true, escaped⟩ : Marks).next '\\' = ⟨true, !escaped⟩ := rfl

theorem next_open {c : Char} (h : c ≠ '\\') (escaped : Bool) :
    (⟨true, escaped⟩ : Marks).next c = ⟨decide (c ≠ '"') || escaped, false⟩ := by
  by_cases hquote : c = '"' <;> cases escaped <;> simp [next, h, hquote]

theorem toggles_iff (m : Marks) : (m.next '"').inString ≠ m.inString ↔ m.escaped = false := by
  obtain ⟨inString, escaped⟩ := m
  cases inString <;> cases escaped <;> decide

end Marks

def Mode.marks : Mode → Marks
  | .outside => ⟨false, false⟩
  | .inString => ⟨true, false⟩
  | .escaped => ⟨true, true⟩

theorem Mode.marks_next (m : Mode) (c : Char) : (m.next c).marks = m.marks.next c := by
  by_cases hquote : c = '"'
  · subst hquote
    cases m <;> rfl
  · by_cases hslash : c = '\\'
    · subst hslash
      cases m <;> rfl
    · cases m <;> simp [next, marks, Marks.next, hquote, hslash]

theorem Mode.marks_after (m : Mode) (text : List Char) :
    (m.after text).marks = m.marks.after text := by
  induction text generalizing m with
  | nil => rfl
  | cons c text ih => rw [after_cons, ih, marks_next]; rfl

theorem Scan.marks_extend_start (padded : Bool) (text : List Char) :
    (start.extend padded text).mode.marks = Marks.start.after text := by
  rw [mode_extend_start, Mode.marks_after]
  rfl

/-! ## The open string -/

namespace Lexeme

/-- The text ends in a string that is open, of which `body` has been read: a quote opened the
string where none was open, and no part of the body closed it. -/
def OpenString (text body : List Char) : Prop :=
  ∃ before, text = before ++ '"' :: body ∧ (Marks.start.after before).inString = false ∧
    ∀ part, part <+: body → (Marks.start.after (before ++ '"' :: part)).inString = true

def slashes (text : List Char) : Nat :=
  (text.rtakeWhile (· = '\\')).length

theorem slashes_concat_slash (text : List Char) : slashes (text ++ ['\\']) = slashes text + 1 := by
  simp [slashes]

theorem slashes_concat_of_ne (text : List Char) {c : Char} (h : c ≠ '\\') :
    slashes (text ++ [c]) = 0 := by
  simp [slashes, h]

theorem OpenString.inString {text body : List Char} (h : OpenString text body) :
    (Marks.start.after text).inString = true := by
  obtain ⟨before, rfl, -, hinside⟩ := h
  exact hinside body (List.prefix_refl body)

/-- Of two quotes the later one cannot have opened the string if the earlier one did, since the
string was open in between. -/
theorem OpenString.not_later {before body later rest : List Char}
    (hinside : ∀ part, part <+: body → (Marks.start.after (before ++ '"' :: part)).inString = true)
    (heq : body = later ++ '"' :: rest) :
    (Marks.start.after (before ++ '"' :: later)).inString ≠ false := by
  rw [hinside later ⟨_, heq.symm⟩]
  decide

theorem OpenString.unique {text body body' : List Char} (h : OpenString text body)
    (h' : OpenString text body') : body = body' := by
  obtain ⟨before, rfl, houtside, hinside⟩ := h
  obtain ⟨before', heq, houtside', hinside'⟩ := h'
  rcases List.append_eq_append_iff.1 heq with ⟨gap, rfl, hgap⟩ | ⟨gap, rfl, hgap⟩
  · cases gap with
    | nil => simpa using hgap
    | cons c gap =>
        obtain ⟨rfl, hbody⟩ := List.cons.inj hgap
        exact absurd houtside' (OpenString.not_later hinside hbody)
  · cases gap with
    | nil => simpa using hgap.symm
    | cons c gap =>
        obtain ⟨rfl, hbody⟩ := List.cons.inj hgap
        exact absurd houtside (OpenString.not_later hinside' hbody)

theorem openString_quote {text : List Char} (h : (Marks.start.after text).inString = false)
    (hopen : (Marks.start.after (text ++ ['"'])).inString = true) :
    OpenString (text ++ ['"']) [] := by
  refine ⟨text, rfl, h, ?_⟩
  intro part hpart
  rw [List.prefix_nil.1 hpart]
  exact hopen

theorem OpenString.concat {text body : List Char} {c : Char} (h : OpenString text body)
    (hinside : (Marks.start.after (text ++ [c])).inString = true) :
    OpenString (text ++ [c]) (body ++ [c]) := by
  obtain ⟨before, rfl, houtside, hparts⟩ := h
  refine ⟨before, by simp, houtside, ?_⟩
  intro part hpart
  rcases List.prefix_concat_iff.1 hpart with rfl | hpart
  · simpa using hinside
  · exact hparts part hpart

end Lexeme

/-! ## The parity -/

open Lexeme

namespace Marks

/-- The marks tell what a text ends in: without an open string nothing is escaped, and in one the
escape is the parity of the backslashes that end its body. -/
def Describe (m : Marks) (text : List Char) : Prop :=
  m = ⟨false, false⟩ ∨
    ∃ body, OpenString text body ∧ m = ⟨true, decide (slashes body % 2 = 1)⟩

theorem describe_concat_closed {text : List Char} (h : start.after text = ⟨false, false⟩)
    (c : Char) : (start.after (text ++ [c])).Describe (text ++ [c]) := by
  have hnext : start.after (text ++ [c]) = (⟨false, false⟩ : Marks).next c := by
    rw [after_concat, h]
  by_cases hquote : c = '"'
  · subst hquote
    exact Or.inr ⟨[], openString_quote (by rw [h]) (by rw [hnext]; rfl), hnext⟩
  · rw [hnext, next_closed hquote]
    exact Or.inl rfl

theorem describe_concat_open {text body : List Char} (hbody : OpenString text body)
    (h : start.after text = ⟨true, decide (slashes body % 2 = 1)⟩) (c : Char) :
    (start.after (text ++ [c])).Describe (text ++ [c]) := by
  have hnext := start.after_concat text c
  rw [h] at hnext
  by_cases hslash : c = '\\'
  · subst hslash
    have hparity : (!decide (slashes body % 2 = 1)) =
        decide (slashes (body ++ ['\\']) % 2 = 1) := by
      rw [slashes_concat_slash, ← decide_not, decide_eq_decide]
      omega
    rw [next_slash, hparity] at hnext
    exact Or.inr ⟨_, hbody.concat (by rw [hnext]), hnext⟩
  · rw [next_open hslash] at hnext
    cases hopen : decide (c ≠ '"') || decide (slashes body % 2 = 1) with
    | false =>
        rw [hopen] at hnext
        exact Or.inl hnext
    | true =>
        rw [hopen] at hnext
        have hparity : decide (slashes (body ++ [c]) % 2 = 1) = false := by
          simp [slashes_concat_of_ne body hslash]
        refine Or.inr ⟨_, hbody.concat (by rw [hnext]), ?_⟩
        rw [hnext, hparity]

/-- The induction is on the text from its end, since a step is one more character. -/
theorem describe_after (text : List Char) : (start.after text).Describe text := by
  induction text using List.reverseRecOn with
  | nil => exact Or.inl rfl
  | append_singleton text c ih =>
      rcases ih with h | ⟨body, hbody, h⟩
      · exact describe_concat_closed h c
      · exact describe_concat_open hbody h c

theorem inString_iff (text : List Char) :
    (start.after text).inString = true ↔ ∃! body, OpenString text body := by
  constructor
  · intro hinside
    rcases describe_after text with h | ⟨body, hbody, -⟩
    · rw [h] at hinside
      cases hinside
    · exact ⟨body, hbody, fun body' hbody' => hbody'.unique hbody⟩
  · rintro ⟨body, hbody, -⟩
    exact hbody.inString

theorem escaped_iff (text : List Char) :
    (start.after text).escaped = true ↔ ∃ body, OpenString text body ∧ slashes body % 2 = 1 := by
  rcases describe_after text with h | ⟨body, hbody, h⟩
  · rw [h]
    constructor
    · intro hescaped
      cases hescaped
    · rintro ⟨body, hbody, -⟩
      have hinside := hbody.inString
      rw [h] at hinside
      cases hinside
  · rw [h, decide_eq_true_iff]
    constructor
    · intro hodd
      exact ⟨body, hbody, hodd⟩
    · rintro ⟨body', hbody', hodd⟩
      rwa [hbody.unique hbody']

theorem escaped_eq_false_iff (text : List Char) :
    (start.after text).escaped = false ↔
      (start.after text).inString = false ∨
        ∃ body, OpenString text body ∧ slashes body % 2 = 0 := by
  rw [← Bool.not_eq_true, escaped_iff, ← Bool.not_eq_true, inString_iff]
  constructor
  · intro hodd
    by_cases hopen : ∃! body, OpenString text body
    · obtain ⟨body, hbody, -⟩ := hopen
      refine Or.inr ⟨body, hbody, ?_⟩
      have hparity : ¬slashes body % 2 = 1 := fun h => hodd ⟨body, hbody, h⟩
      omega
    · exact Or.inl hopen
  · rintro hclosed ⟨body, hbody, hodd⟩
    rcases hclosed with hnone | ⟨body', hbody', heven⟩
    · exact hnone ⟨body, hbody, fun body' hbody' => hbody'.unique hbody⟩
    · rw [hbody'.unique hbody] at heven
      omega

end Marks

/-! ## The lexemes that are finished -/

theorem Scan.finished_step (padded : Bool) (s : Scan) (c : Char) :
    ∃ added, (s.step padded c).finished = added ++ s.finished ∧
      (added ≠ [] → s.mode = .outside ∧ s.mode.next c = .outside) := by
  obtain ⟨ended, hended⟩ : ∃ ended, s.flushed = ended ++ s.finished := by
    unfold flushed
    split
    · exact ⟨[], rfl⟩
    · exact ⟨[_], rfl⟩
  rcases s.step_forms padded c with hstep | ⟨hmode, hnext, hstep | hstep | hstep⟩
  · exact ⟨[], by rw [hstep]; rfl, fun h => absurd rfl h⟩
  · exact ⟨ended, by rw [hstep, settled, hended], fun _ => ⟨hmode, hnext⟩⟩
  · exact ⟨[_], by rw [hstep]; rfl, fun _ => ⟨hmode, hnext⟩⟩
  · exact ⟨[c] :: ended, by rw [hstep, hended]; rfl, fun _ => ⟨hmode, hnext⟩⟩

/-- After every text, and whether or not the scan sets delimiters apart, its mode is that of the
two marks. What is escaped is in a string; there the escape is the parity of the backslashes that
end what has been read of the string, and a quote toggles the string if it is even. Lexemes are
finished only where no string is open. -/
theorem marks_by_parity (padded : Bool) (text : List Char) :
    (Scan.start.extend padded text).mode.marks = Marks.start.after text ∧
    ((Marks.start.after text).escaped = true → (Marks.start.after text).inString = true) ∧
    ((Marks.start.after text).inString = true ↔ ∃! body, OpenString text body) ∧
    ((Marks.start.after text).escaped = true ↔
      ∃ body, OpenString text body ∧ slashes body % 2 = 1) ∧
    ((Marks.start.after (text ++ ['"'])).inString ≠ (Marks.start.after text).inString ↔
      (Marks.start.after text).inString = false ∨
        ∃ body, OpenString text body ∧ slashes body % 2 = 0) ∧
    ∀ c, ∃ added,
      (Scan.start.extend padded (text ++ [c])).finished =
          added ++ (Scan.start.extend padded text).finished ∧
        (added ≠ [] → (Marks.start.after text).inString = false ∧
          (Marks.start.after (text ++ [c])).inString = false) := by
  have hmarks := Scan.marks_extend_start padded
  refine ⟨hmarks text, ?_, Marks.inString_iff text, Marks.escaped_iff text, ?_, ?_⟩
  · intro hescaped
    obtain ⟨body, hbody, -⟩ := (Marks.escaped_iff text).1 hescaped
    exact hbody.inString
  · rw [Marks.after_concat, Marks.toggles_iff, Marks.escaped_eq_false_iff]
  · intro c
    obtain ⟨added, hadded, houtside⟩ :=
      (Scan.start.extend padded text).finished_step padded c
    refine ⟨added, by rw [Scan.extend_append]; exact hadded, ?_⟩
    intro hne
    obtain ⟨hmode, hnext⟩ := houtside hne
    rw [Marks.after_concat, ← hmarks text, ← Mode.marks_next, hnext, hmode]
    exact ⟨rfl, rfl⟩

-- Three backslashes before the string do not count, and of the three inside it the last escapes.
example :
    Marks.start.after "\\\\\\\"a".toList = ⟨true, false⟩ ∧
      Marks.start.after "\\\"\\\\\\".toList = ⟨true, true⟩ := by
  decide

end SchemeLexer
