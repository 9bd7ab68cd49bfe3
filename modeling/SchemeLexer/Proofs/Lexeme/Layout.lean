import SchemeLexer.Proofs.Lexeme.Steps
/-!
# The layout of a source

A source is its lexemes with whitespace around them. `Layout` says which runs of whitespace may be
empty, and `split_eq_iff_layout` that a source is split into exactly the lexemes of which it is a
layout: soundness follows the scan through the text, completeness runs it over a given layout.
-/

namespace SchemeLexer

namespace Lexeme

def Blank (gap : List Char) : Prop :=
  ∀ c ∈ gap, Charset.isWhitespace c = true

instance : DecidablePred Blank := fun gap => List.decidableBAll _ gap

/-- A lexeme after which nothing can be added to it. -/
def EndsItself (lexeme : List Char) : Prop :=
  lexeme = [')'] ∨ lexeme = ['\''] ∨ lexeme.getLast? = some '('

def Apart (lexeme next : List Char) : Prop :=
  EndsItself lexeme ∨ next = [')'] ∨ next = ['\'']

/-- Lexemes in order, each followed by a run of whitespace. All are closed but for the last, which
may be open if nothing follows it. A run may be empty after the last lexeme and between lexemes
that need none. -/
inductive Spaced : List (List Char) → List Char → Prop where
  | none : Spaced [] []
  | closed {lexeme gap : List Char} :
      Closed lexeme → Blank gap → Spaced [lexeme] (lexeme ++ gap)
  | unfinished {lexeme : List Char} : Open lexeme → Spaced [lexeme] lexeme
  | more {lexeme gap next text : List Char} {rest : List (List Char)} :
      Closed lexeme → Blank gap → (gap = [] → Apart lexeme next) →
        Spaced (next :: rest) text → Spaced (lexeme :: next :: rest) (lexeme ++ gap ++ text)

/-- A text that is a run of whitespace and then the given lexemes, spaced. -/
def Layout (lexemes : List (List Char)) (text : List Char) : Prop :=
  ∃ gap body, Blank gap ∧ Spaced lexemes body ∧ text = gap ++ body

/-! ## Layouts of a longer text -/

theorem blank_nil : Blank [] := by
  simp [Blank]

theorem Blank.cons {c : Char} {gap : List Char} (hc : Charset.isWhitespace c = true)
    (hgap : Blank gap) : Blank (c :: gap) := by
  intro d hd
  rcases List.mem_cons.1 hd with rfl | hd
  · exact hc
  · exact hgap d hd

theorem Spaced.cons {lexeme gap body : List Char} {lexemes : List (List Char)}
    (hlexeme : Closed lexeme) (hgap : Blank gap) (hbody : Spaced lexemes body)
    (hapart : gap = [] → ∀ next ∈ lexemes.head?, Apart lexeme next) :
    Spaced (lexeme :: lexemes) (lexeme ++ gap ++ body) := by
  cases lexemes with
  | nil =>
      cases hbody
      rw [List.append_nil]
      exact Spaced.closed hlexeme hgap
  | cons next rest =>
      apply Spaced.more hlexeme hgap _ hbody
      intro hempty
      exact hapart hempty next rfl

theorem Layout.blank_cons {c : Char} {lexemes : List (List Char)} {text : List Char}
    (hc : Charset.isWhitespace c = true) (h : Layout lexemes text) :
    Layout lexemes (c :: text) := by
  obtain ⟨gap, body, hgap, hbody, rfl⟩ := h
  exact ⟨c :: gap, body, hgap.cons hc, hbody, rfl⟩

theorem Layout.cons {lexeme text : List Char} {lexemes : List (List Char)}
    (hlexeme : Closed lexeme) (h : Layout lexemes text)
    (hapart : ∀ next ∈ lexemes.head?, Apart lexeme next) :
    Layout (lexeme :: lexemes) (lexeme ++ text) := by
  obtain ⟨gap, body, hgap, hbody, rfl⟩ := h
  refine ⟨[], lexeme ++ gap ++ body, blank_nil, ?_, by simp⟩
  exact Spaced.cons hlexeme hgap hbody fun _ => hapart

theorem Layout.cons_blank {lexeme text : List Char} {c : Char} {lexemes : List (List Char)}
    (hlexeme : Closed lexeme) (hc : Charset.isWhitespace c = true) (h : Layout lexemes text) :
    Layout (lexeme :: lexemes) (lexeme ++ c :: text) := by
  obtain ⟨gap, body, hgap, hbody, rfl⟩ := h
  refine ⟨[], lexeme ++ (c :: gap) ++ body, blank_nil, ?_, by simp⟩
  apply Spaced.cons hlexeme (hgap.cons hc) hbody
  intro hempty
  exact absurd hempty (by simp)

/-! ## Soundness -/

/-- The end of a source ends the lexeme being read, in whatever mode. -/
theorem Partial.layout {m : Mode} {piece : List Char} (h : Partial m piece.reverse) :
    Layout (⟨m, piece, []⟩ : Scan).lexemes piece.reverse := by
  by_cases hpiece : piece = []
  · subst hpiece
    exact ⟨[], [], blank_nil, Spaced.none, rfl⟩
  · rw [Scan.lexemes_mk m [] hpiece]
    refine ⟨[], piece.reverse, blank_nil, ?_, rfl⟩
    cases m with
    | outside =>
        have hclosed := Closed.units h (by simpa using hpiece)
        simpa using Spaced.closed hclosed blank_nil
    | inString =>
        obtain ⟨units, items, hunits, hitems, heq⟩ := h
        exact Spaced.unfinished ⟨units, items, [], hunits, hitems, Or.inl rfl, by simpa using heq⟩
    | escaped =>
        obtain ⟨units, items, hunits, hitems, heq⟩ := h
        exact Spaced.unfinished ⟨units, items, ['\\'], hunits, hitems, Or.inr rfl, heq⟩

/-- The finished lexeme, if there is one, before a layout of what follows. -/
theorem Units.layout_append {piece text : List Char} {lexemes : List (List Char)}
    (h : Units piece.reverse) (hempty : piece = [] → Layout lexemes text)
    (hcons : Closed piece.reverse → Layout (piece.reverse :: lexemes) (piece.reverse ++ text)) :
    Layout ((⟨.outside, piece, []⟩ : Scan).lexemes ++ lexemes) (piece.reverse ++ text) := by
  cases piece with
  | nil => exact hempty rfl
  | cons c piece => exact hcons (Closed.units h (by simp))

/-- A text is a layout of what its scan finds, also when the scan starts inside a lexeme. -/
theorem layout_extend (text : List Char) (m : Mode) (piece : List Char)
    (h : Partial m piece.reverse) :
    Layout ((⟨m, piece, []⟩ : Scan).extend true text).lexemes (piece.reverse ++ text) := by
  -- The text that remains gets shorter; what has been read of the lexeme is known by its mode.
  induction text generalizing m piece with
  | nil => simpa using h.layout
  | cons c text ih =>
      have hfresh : Layout (scan true text) text := ih .outside [] Units.nil
      rw [Scan.extend_cons]
      rcases Scan.step_cases ⟨m, piece, []⟩ c with ⟨hc, hstep⟩ | ⟨hm, hc, hstep⟩ |
        ⟨hm, rfl, hstep⟩ | ⟨hm, hc, hstep⟩
      · rw [hstep]
        have hmore := ih (m.next c) (c :: piece) (by simpa using h.snoc hc)
        simpa using hmore
      · obtain rfl : m = .outside := hm
        rw [hstep, Scan.settled, Scan.lexemes_extend_outside]
        apply Units.layout_append h
        · intro _
          exact hfresh.blank_cons hc
        · intro hclosed
          exact hfresh.cons_blank hclosed hc
      · obtain rfl : m = .outside := hm
        rw [hstep, Scan.lexemes_extend_outside]
        have hends : EndsItself (piece.reverse ++ ['(']) := by simp [EndsItself]
        simpa using hfresh.cons (Closed.opening h) fun next _ => Or.inl hends
      · -- The lexeme before a standalone character needs no blank after it.
        obtain rfl : m = .outside := hm
        rw [hstep, Scan.lexemes_extend_outside, List.reverse_cons, List.append_assoc]
        have hends : EndsItself [c] := by
          rcases hc with rfl | rfl <;> simp [EndsItself]
        have hrest : Layout ([c] :: scan true text) (c :: text) :=
          hfresh.cons (Closed.standalone hc) fun next _ => Or.inl hends
        apply Units.layout_append h
        · intro _
          exact hrest
        · intro hclosed
          apply hrest.cons hclosed
          rintro next ⟨⟩
          rcases hc with rfl | rfl <;> simp [Apart]

theorem layout_scan (text : List Char) : Layout (scan true text) text :=
  layout_extend text .outside [] Units.nil

/-! ## Completeness -/

theorem Items.extend {items : List Char} (h : Items items) (padded : Bool) (piece : List Char)
    (finished : List (List Char)) :
    (⟨.inString, piece, finished⟩ : Scan).extend padded items =
      ⟨.inString, items.reverse ++ piece, finished⟩ := by
  have hinside : Mode.inString ≠ .outside := by decide
  have hescaped : Mode.escaped ≠ .outside := by decide
  induction h generalizing piece with
  | nil => rfl
  | plain hquote hslash _ ih =>
      rw [Scan.extend_cons, Scan.step_of_inside padded _ hinside]
      simp [Mode.next, hquote, hslash, ih]
  | escape _ ih =>
      rw [Scan.extend_cons, Scan.step_of_inside padded _ hinside, Scan.extend_cons,
        Scan.step_of_inside padded _ (by simp [Mode.next])]
      simp [Mode.next, ih]

theorem Units.extend {units : List Char} (h : Units units) (padded : Bool)
    (piece : List Char) (finished : List (List Char)) :
    (⟨.outside, piece, finished⟩ : Scan).extend padded units =
      ⟨.outside, units.reverse ++ piece, finished⟩ := by
  induction h generalizing piece with
  | nil => rfl
  | plain hplain _ ih =>
      rw [Scan.extend_cons, Scan.step_plain padded rfl hplain, ih]
      simp
  | literal hliteral _ ih =>
      obtain ⟨items, hitems, rfl⟩ := hliteral
      have hinside : Mode.inString ≠ .outside := by decide
      have hclose : Mode.inString.next '"' = .outside := rfl
      rw [Scan.extend_append, Scan.extend_cons, Scan.step_quote padded rfl,
        Scan.extend_append, hitems.extend, Scan.extend_cons,
        Scan.step_of_inside padded _ hinside, Scan.extend_nil, hclose, ih]
      simp

theorem Units.scan_opening {units : List Char} (h : Units units) (text : List Char) :
    scan true (units ++ '(' :: text) = (units ++ ['(']) :: scan true text := by
  rw [scan_append, Scan.start, h.extend, Scan.extend_cons, Scan.step_opening rfl,
    Scan.lexemes_extend_outside]
  simp

theorem Units.scan_eq {units : List Char} (h : Units units) (hne : units ≠ []) :
    scan true units = [units] := by
  rw [scan, Scan.start, h.extend, Scan.lexemes_mk _ _ (by simpa using hne)]
  simp

theorem Closed.scan_eq {lexeme : List Char} (h : Closed lexeme) :
    scan true lexeme = [lexeme] := by
  cases h with
  | standalone hc => rw [scan_standalone_cons [] hc, scan_nil]
  | units hunits hne => exact hunits.scan_eq hne
  | opening hunits => rw [hunits.scan_opening, scan_nil]

theorem Closed.after_outside {lexeme : List Char} (h : Closed lexeme) :
    Mode.outside.after lexeme = .outside := by
  cases h with
  | standalone hc => rcases hc with rfl | rfl <;> rfl
  | units hunits _ => exact hunits.after_outside
  | opening hunits =>
      rw [Mode.after_append, hunits.after_outside]
      rfl

theorem Open.scan_eq {lexeme : List Char} (h : Open lexeme) : scan true lexeme = [lexeme] := by
  obtain ⟨units, items, tail, hunits, hitems, htail, rfl⟩ := h
  have hinside : Mode.inString ≠ .outside := by decide
  rw [scan, Scan.start, Scan.extend_append, hunits.extend, Scan.extend_cons,
    Scan.step_quote true rfl, Scan.extend_append, hitems.extend]
  rcases htail with rfl | rfl
  · rw [Scan.extend_nil, Scan.lexemes_mk _ _ (by simp)]
    simp
  · rw [Scan.extend_cons, Scan.step_of_inside true _ hinside, Scan.extend_nil,
      Scan.lexemes_mk _ _ (by simp)]
    simp

theorem Units.getLast?_ne_opening {units : List Char} (h : Units units) :
    units.getLast? ≠ some '(' := by
  induction h with
  | nil => simp
  | @plain c rest hplain _ ih =>
      obtain ⟨_, hopening, _⟩ := hplain
      rw [List.getLast?_cons]
      cases hlast : rest.getLast? with
      | none => simpa using hopening
      | some d => simpa [hlast] using ih
  | @literal text rest hliteral _ ih =>
      obtain ⟨items, _, rfl⟩ := hliteral
      have hquote : ('"' :: (items ++ ['"'])).getLast? = some '"' := by
        rw [← List.cons_append, List.getLast?_concat]
      rw [List.getLast?_append, hquote]
      cases hlast : rest.getLast? with
      | none => simp
      | some d => simpa [hlast] using ih

theorem Units.not_endsItself {units : List Char} (h : Units units) : ¬ EndsItself units := by
  rintro (rfl | rfl | hlast)
  · exact absurd (h.extend true [] []) (by decide)
  · exact absurd (h.extend true [] []) (by decide)
  · exact h.getLast?_ne_opening hlast

theorem Closed.scan_endsItself {lexeme : List Char} (h : Closed lexeme)
    (hends : EndsItself lexeme) (text : List Char) :
    scan true (lexeme ++ text) = lexeme :: scan true text := by
  cases h with
  | standalone hc => exact scan_standalone_cons text hc
  | units hunits _ => exact absurd hends hunits.not_endsItself
  | opening hunits =>
      rw [List.append_assoc]
      exact hunits.scan_opening text

theorem scan_blank_append (padded : Bool) {gap : List Char} (hgap : Blank gap)
    (text : List Char) : scan padded (gap ++ text) = scan padded text := by
  induction gap with
  | nil => rfl
  | cons c gap ih =>
      rw [List.cons_append, scan_blank_cons padded _ (hgap c (by simp))]
      exact ih fun d hd => hgap d (by simp [hd])

theorem Closed.scan_append {lexeme gap text : List Char} (h : Closed lexeme)
    (hgap : Blank gap)
    (hapart : gap = [] →
      EndsItself lexeme ∨ text = [] ∨ ∃ c rest, Standalone c ∧ text = c :: rest) :
    scan true (lexeme ++ gap ++ text) = lexeme :: scan true text := by
  cases gap with
  | nil =>
      rw [List.append_nil]
      rcases hapart rfl with hends | rfl | ⟨c, rest, hc, rfl⟩
      · exact h.scan_endsItself hends text
      · rw [List.append_nil, h.scan_eq, scan_nil]
      · rw [scan_append_standalone rest h.after_outside hc, h.scan_eq,
          scan_standalone_cons rest hc]
        rfl
  | cons c gap =>
      have hrest : Blank gap := fun d hd => hgap d (by simp [hd])
      rw [List.append_assoc, List.cons_append,
        scan_append_blank true _ h.after_outside (hgap c (by simp)), h.scan_eq,
        scan_blank_append true hrest]
      rfl

theorem Spaced.eq_append {lexeme text : List Char} {lexemes : List (List Char)}
    (h : Spaced (lexeme :: lexemes) text) : ∃ rest, text = lexeme ++ rest := by
  cases h with
  | closed => exact ⟨_, rfl⟩
  | unfinished => exact ⟨[], by simp⟩
  | more => exact ⟨_, List.append_assoc _ _ _⟩

theorem Spaced.scan_eq {lexemes : List (List Char)} {text : List Char}
    (h : Spaced lexemes text) : scan true text = lexemes := by
  induction h with
  | none => rfl
  | closed hlexeme hgap =>
      have hend := hlexeme.scan_append hgap fun _ => Or.inr (Or.inl rfl)
      rwa [List.append_nil, scan_nil] at hend
  | unfinished hlexeme => exact hlexeme.scan_eq
  | more hlexeme hgap hapart hrest ih =>
      rw [hlexeme.scan_append hgap _, ih]
      intro hempty
      obtain ⟨rest, rfl⟩ := hrest.eq_append
      rcases hapart hempty with hends | rfl | rfl
      · exact Or.inl hends
      · exact Or.inr (Or.inr ⟨')', rest, Or.inl rfl, rfl⟩)
      · exact Or.inr (Or.inr ⟨'\'', rest, Or.inr rfl, rfl⟩)

theorem Layout.scan_eq {lexemes : List (List Char)} {text : List Char}
    (h : Layout lexemes text) : scan true text = lexemes := by
  obtain ⟨gap, body, hgap, hbody, rfl⟩ := h
  rw [scan_blank_append true hgap, hbody.scan_eq]

theorem scan_eq_iff_layout {text : List Char} {lexemes : List (List Char)} :
    scan true text = lexemes ↔ Layout lexemes text := by
  constructor
  · rintro rfl
    exact layout_scan text
  · exact Layout.scan_eq

end Lexeme

open Lexeme

theorem split_eq_iff_layout (source : String) (lexemes : List String) :
    split .outsideStrings source = lexemes ↔
      Layout (lexemes.map String.toList) source.toList := by
  rw [split_eq_iff, ← scan_eq_iff_layout]
  rfl

end SchemeLexer
