import Mathlib.Data.List.Induction
import SchemeLexer.Proofs.Classification.Overlap
import SchemeLexer.Proofs.Classification.Padded
import SchemeLexer.Proofs.Lexeme.Concatenation
/-!
# String literals in the scan

What a string literal is, is decided twice: by the rule of classification, which looks at a lexeme
as a whole, and by the modes of the scan, one character at a time. Both decide alike. Every lexeme
stands somewhere in the text that is scanned, at a place outside strings, so it is a string exactly
if the scan enters one with its first character and leaves it with its last.
-/

namespace SchemeLexer

open Lexeme

/-! ## Leaving a string -/

namespace Mode

/-- A text that is read from the mode on leads out of strings with its end and not before. -/
def LeavesAtEnd (m : Mode) (text : List Char) : Prop :=
  (∀ part, part <+: text → part ≠ text → (m.after part).inside = true) ∧
    (m.after text).inside = false

theorem inside_eq_false {m : Mode} : m.inside = false ↔ m = .outside := by
  cases m <;> decide

theorem leavesAtEnd_nil {m : Mode} : m.LeavesAtEnd [] ↔ m = .outside := by
  simp [LeavesAtEnd, inside_eq_false]

theorem leavesAtEnd_outside {text : List Char} : outside.LeavesAtEnd text ↔ text = [] := by
  constructor
  · rintro ⟨hparts, -⟩
    by_contra hne
    have hinside := hparts [] List.nil_prefix (Ne.symm hne)
    cases hinside
  · rintro rfl
    exact leavesAtEnd_nil.2 rfl

theorem leavesAtEnd_cons {m : Mode} (hm : m.inside = true) (c : Char) (text : List Char) :
    m.LeavesAtEnd (c :: text) ↔ (m.next c).LeavesAtEnd text := by
  constructor
  · rintro ⟨hparts, hend⟩
    refine ⟨?_, hend⟩
    intro part hpart hne
    exact hparts (c :: part) (List.cons_prefix_cons.2 ⟨rfl, hpart⟩) (by simpa using hne)
  · rintro ⟨hparts, hend⟩
    refine ⟨?_, hend⟩
    intro part hpart hne
    cases part with
    | nil => exact hm
    | cons d part =>
        obtain ⟨rfl, hrest⟩ := List.cons_prefix_cons.1 hpart
        exact hparts part hrest (by simpa using hne)

end Mode

namespace Literal

/-- The induction is on the reading of the string, so that an escaped character goes together with
its backslash. -/
theorem closes_iff_leavesAtEnd (text : List Char) :
    closes text = true ↔ Mode.inString.LeavesAtEnd text := by
  fun_induction closes text with
  | case1 => simp [Mode.leavesAtEnd_nil]
  | case2 rest =>
      have hnext : Mode.inString.next '"' = .outside := rfl
      rw [Mode.leavesAtEnd_cons rfl, hnext, Mode.leavesAtEnd_outside, List.isEmpty_iff]
  | case3 =>
      have hnext : Mode.inString.next '\\' = .escaped := rfl
      rw [Mode.leavesAtEnd_cons rfl, hnext, Mode.leavesAtEnd_nil]
      decide
  | case4 c rest ih =>
      have hnext : (Mode.inString.next '\\').next c = .inString := rfl
      rw [Mode.leavesAtEnd_cons rfl, Mode.leavesAtEnd_cons rfl, hnext, ih]
  | case5 c rest hquote hlone hpair ih =>
      have hslash : c ≠ '\\' := by
        intro hslash
        cases hrest : rest with
        | nil => exact hlone hslash hrest
        | cons d rest => exact hpair d rest hslash hrest
      have hnext : Mode.inString.next c = .inString := by
        simp [Mode.next, hslash, show c ≠ '"' from hquote]
      rw [Mode.leavesAtEnd_cons rfl, hnext, ih]

theorem isString_cons_of_ne {c : Char} (h : c ≠ '"') (rest : List Char) :
    isString (c :: rest) = false := by
  unfold isString
  split
  · next heq => exact absurd (List.cons.inj heq).1 h
  · rfl

theorem closes_of_items {items : List Char} (h : Items items) : closes (items ++ ['"']) = true := by
  induction h with
  | nil => rfl
  | plain hquote hslash _ ih => rw [List.cons_append, closes_cons _ hquote hslash, ih]
  | escape _ ih => exact ih

theorem isString_iff_stringLiteral (text : List Char) :
    isString text = true ↔ StringLiteral text := by
  constructor
  · intro h
    unfold isString at h
    split at h
    · next rest =>
        obtain ⟨items, hitems, rfl⟩ := exists_items_of_closes h
        exact ⟨items, hitems, rfl⟩
    · cases h
  · rintro ⟨items, hitems, rfl⟩
    exact closes_of_items hitems

end Literal

/-! ## The lexemes that are strings -/

theorem isString_of_classifyChars_eq_string {lexeme : List Char}
    (h : classifyChars lexeme = .string) : Literal.isString lexeme = true := by
  rw [classifyChars_eq] at h
  cases hlookup : Rule.delimiters.lookup lexeme with
  | some kind =>
      rw [hlookup] at h
      subst h
      have hmem := mem_delimiters_of_lookup hlookup
      simp [Rule.delimiters] at hmem
  | none =>
      rw [hlookup] at h
      dsimp only at h
      split_ifs at h with _ _ hstring
      exact hstring

theorem classifyChars_eq_string_iff {lexeme : List Char} :
    classifyChars lexeme = .string ↔ Literal.isString lexeme = true := by
  refine ⟨isString_of_classifyChars_eq_string, ?_⟩
  intro hstring
  have hkind : Rule.string.kind? lexeme = some .string := by simp [Rule.kind?, hstring]
  have hcontested : lexeme ∉ Rule.contested := by
    intro hcontested
    fin_cases hcontested <;> exact absurd hstring (by decide)
  have hunique : ∀ r : Rule, r.Recognises lexeme → r = .string := by
    intro r hr
    rw [hr.eq_candidate hcontested, Rule.candidate_of_isString hstring]
  exact Rule.firstKind_eq_of_mem hunique Rule.string.mem_all hkind

/-! ## Where lexemes stand -/

namespace Scan

/-- The lexeme stands in the text outside strings, after a text that has the earlier lexemes. -/
def Place (padded : Bool) (text : List Char) (earlier : List (List Char)) (lexeme : List Char) :
    Prop :=
  ∃ before after, text = before ++ (lexeme ++ after) ∧
    Mode.outside.after before = .outside ∧ scan padded before = earlier

def Placed (padded : Bool) (text : List Char) (lexemes : List (List Char)) : Prop :=
  ∀ earlier lexeme, earlier ++ [lexeme] <+: lexemes → Place padded text earlier lexeme

variable {padded : Bool} {text : List Char}

theorem Placed.append {lexemes : List (List Char)} (h : Placed padded text lexemes)
    (more : List Char) : Placed padded (text ++ more) lexemes := by
  intro earlier lexeme hstart
  obtain ⟨before, after, rfl, hplace⟩ := h earlier lexeme hstart
  exact ⟨before, after ++ more, by simp, hplace⟩

theorem Placed.concat {lexemes : List (List Char)} {last : List Char}
    (h : Placed padded text lexemes) (hlast : Place padded text lexemes last) :
    Placed padded text (lexemes ++ [last]) := by
  intro earlier lexeme hstart
  rcases List.prefix_concat_iff.1 hstart with heq | hstart
  · obtain ⟨rfl, hlexeme⟩ := List.append_inj' heq rfl
    cases hlexeme
    exact hlast
  · exact h earlier lexeme hstart

/-- What a scan has found stands in the text: the finished lexemes, and the unfinished one at its
end. -/
structure Located (padded : Bool) (text : List Char) (s : Scan) : Prop where
  finished : Placed padded text s.finished.reverse
  piece : ∃ before, text = before ++ s.piece.reverse ∧ Mode.outside.after before = .outside ∧
    scan padded before = s.finished.reverse

theorem Located.lexemes {s : Scan} (h : Located padded text s) : Placed padded text s.lexemes := by
  obtain ⟨mode, piece, finished⟩ := s
  by_cases hpiece : piece = []
  · subst hpiece
    exact h.finished
  · rw [lexemes_mk mode finished hpiece]
    obtain ⟨before, rfl, hplace⟩ := h.piece
    exact h.finished.concat ⟨before, [], by simp, hplace⟩

theorem located_start (padded : Bool) : Located padded [] start := by
  refine ⟨?_, [], rfl, rfl, rfl⟩
  intro earlier lexeme hstart
  exact absurd (List.prefix_nil.1 hstart) (by simp)

/-- Where no lexeme is being read, the next one begins at the end of the text. -/
theorem located_of_piece_nil {s : Scan} (hs : s = start.extend padded text)
    (hmode : s.mode = .outside) (hpiece : s.piece = [])
    (hfinished : Placed padded text s.finished.reverse) : Located padded text s := by
  refine ⟨hfinished, text, by simp [hpiece], ?_, ?_⟩
  · rw [← mode_extend_start padded, ← hs, hmode]
  · rw [scan, ← hs, lexemes, flushed, hpiece]

theorem Located.step {s : Scan} (hs : s = start.extend padded text)
    (h : Located padded text s) (c : Char) : Located padded (text ++ [c]) (s.step padded c) := by
  have hnext : s.step padded c = start.extend padded (text ++ [c]) := by
    rw [extend_append, ← hs]
    rfl
  rcases s.step_forms padded c with hstep | ⟨hmode, -, hstep | hstep | hstep⟩
  · rw [hstep]
    obtain ⟨before, rfl, hplace⟩ := h.piece
    exact ⟨h.finished.append [c], before, by simp, hplace⟩
  · apply located_of_piece_nil hnext (by rw [hstep]; rfl) (by rw [hstep]; rfl)
    rw [hstep]
    exact h.lexemes.append [c]
  · apply located_of_piece_nil hnext (by rw [hstep]) (by rw [hstep])
    rw [hstep, List.reverse_cons]
    obtain ⟨before, rfl, hplace⟩ := h.piece
    exact (h.finished.append [c]).concat ⟨before, [], by simp, hplace⟩
  · apply located_of_piece_nil hnext (by rw [hstep]) (by rw [hstep])
    rw [hstep, List.reverse_cons]
    -- the character is a lexeme of its own, and everything before it is complete
    have houtside : Mode.outside.after text = .outside := by
      rw [← mode_extend_start padded, ← hs, hmode]
    exact (h.lexemes.append [c]).concat ⟨text, [], by simp, houtside, by rw [scan, ← hs]⟩

theorem located_extend (padded : Bool) (text : List Char) :
    Located padded text (start.extend padded text) := by
  induction text using List.reverseRecOn with
  | nil => exact located_start padded
  | append_singleton text c ih =>
      rw [extend_append]
      exact ih.step rfl c

theorem placed_scan (padded : Bool) (text : List Char) : Placed padded text (scan padded text) :=
  (located_extend padded text).lexemes

/-! ## Strings by the scan -/

/-- A scan that has read `before` enters a string with the first character of the lexeme, and
leaves it with the last one. -/
def ReadsString (padded : Bool) (before lexeme : List Char) : Prop :=
  lexeme.head? = some '"' ∧
    (∀ part, part <+: lexeme → part ≠ [] → part ≠ lexeme →
      (start.extend padded (before ++ part)).mode.inside = true) ∧
    (start.extend padded (before ++ lexeme)).mode.inside = false

theorem readsString_quote_cons {before : List Char}
    (hbefore : Mode.outside.after before = .outside) (rest : List Char) :
    ReadsString padded before ('"' :: rest) ↔ Mode.inString.LeavesAtEnd rest := by
  have hmode (part : List Char) :
      (start.extend padded (before ++ '"' :: part)).mode = Mode.inString.after part := by
    rw [mode_extend_start, Mode.after_append, hbefore]
    rfl
  constructor
  · rintro ⟨-, hparts, hend⟩
    refine ⟨?_, by rwa [hmode] at hend⟩
    intro part hpart hne
    have hinside := hparts ('"' :: part) (List.cons_prefix_cons.2 ⟨rfl, hpart⟩) (by simp)
      (by simpa using hne)
    rwa [hmode] at hinside
  · rintro ⟨hparts, hend⟩
    refine ⟨rfl, ?_, by rwa [hmode]⟩
    intro part hpart hne hproper
    cases part with
    | nil => exact absurd rfl hne
    | cons d part =>
        obtain ⟨rfl, hrest⟩ := List.cons_prefix_cons.1 hpart
        rw [hmode]
        exact hparts part hrest (by simpa using hproper)

end Scan

theorem isString_iff_readsString (padded : Bool) {before : List Char}
    (hbefore : Mode.outside.after before = .outside) (lexeme : List Char) :
    Literal.isString lexeme = true ↔ Scan.ReadsString padded before lexeme := by
  cases lexeme with
  | nil => simp [Literal.isString, Scan.ReadsString]
  | cons c rest =>
      by_cases hquote : c = '"'
      · subst hquote
        rw [Scan.readsString_quote_cons hbefore, ← Literal.closes_iff_leavesAtEnd]
        rfl
      · rw [Literal.isString_cons_of_ne hquote]
        simp [Scan.ReadsString, hquote]

/-- A text is a string literal exactly if a scan of it enters a string with its first character and
leaves it with its last. So is a lexeme, where it stands in the scan of its source. -/
theorem strings_by_scan :
    (∀ (padded : Bool) (x : String),
      (Literal.isString x.toList = true ↔ StringLiteral x.toList) ∧
        (Literal.isString x.toList = true ↔ Scan.ReadsString padded [] x.toList)) ∧
    ∀ (padding : Padding) (source : String) (earlier : List String) (lexeme : String),
      earlier ++ [lexeme] <+: split padding source →
        ∃ before after,
          padding.prepared source.toList = before ++ (lexeme.toList ++ after) ∧
          (Scan.start.extend padding.padded before).mode = .outside ∧
          scan padding.padded before = earlier.map String.toList ∧
          (classify lexeme = .string ↔
            Scan.ReadsString padding.padded before lexeme.toList) := by
  constructor
  · intro padded x
    exact ⟨Literal.isString_iff_stringLiteral x.toList,
      isString_iff_readsString padded rfl x.toList⟩
  · intro padding source earlier lexeme hstart
    have hlexemes : (earlier ++ [lexeme]).map String.toList <+:
        scan padding.padded (padding.prepared source.toList) := by
      have hsplit := split_eq_iff.1 (rfl : split padding source = _)
      rw [padding.splitChars_eq_lexemes] at hsplit
      rw [scan, ← Padding.scanned, hsplit]
      exact hstart.map String.toList
    rw [List.map_append, List.map_singleton] at hlexemes
    obtain ⟨before, after, htext, houtside, hearlier⟩ :=
      Scan.placed_scan padding.padded _ _ _ hlexemes
    refine ⟨before, after, htext, by rw [mode_extend_start, houtside], hearlier, ?_⟩
    rw [classify, classifyChars_eq_string_iff, isString_iff_readsString padding.padded houtside]

-- The second lexeme holds a string but is none, and blanks are written into the third.
theorem strings_by_scan_glued :
    ["'", "a\"b\""] ++ ["\"\\ ) \\\"\""] <+: split .everywhere "'a\"b\" \"\\)\\\"\"" ∧
      ∃ before after,
        Padding.everywhere.prepared "'a\"b\" \"\\)\\\"\"".toList =
          before ++ ("\"\\ ) \\\"\"".toList ++ after) ∧
        (Scan.start.extend false before).mode = .outside ∧
        scan false before = ["'".toList, "a\"b\"".toList] ∧
        (classify "\"\\ ) \\\"\"" = .string ↔
          Scan.ReadsString false before "\"\\ ) \\\"\"".toList) := by
  have hstart : ["'", "a\"b\""] ++ ["\"\\ ) \\\"\""] <+:
      split .everywhere "'a\"b\" \"\\)\\\"\"" := by decide
  exact ⟨hstart, strings_by_scan.2 .everywhere _ _ _ hstart⟩

end SchemeLexer
