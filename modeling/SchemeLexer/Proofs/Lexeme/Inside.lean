import SchemeLexer.Proofs.Lexeme.Steps
/-!
# Characters inside strings

Which characters of a text lie inside a string, told from the text alone: a quote opens a string,
the next quote that no backslash escapes closes it, and the end of the text may come first. Every
such character is found again in the lexemes, in the same order.
-/

namespace SchemeLexer

namespace Lexeme

/-- The characters of a text, each with whether it lies inside a string, a closing quote included;
`inside` says whether the text begins there. A backslash inside a string takes the next character
with it, so that an escaped quote closes nothing. -/
def located : Bool → List Char → List (Char × Bool)
  | _, [] => []
  | false, c :: rest => (c, false) :: located (c = '"') rest
  | true, '"' :: rest => ('"', true) :: located false rest
  | true, '\\' :: c :: rest => ('\\', true) :: (c, true) :: located true rest
  | true, c :: rest => (c, true) :: located true rest

def quoted (text : List Char) : List Char :=
  ((located false text).filter Prod.snd).map Prod.fst

end Lexeme

open Lexeme

/-! ## Location by modes -/

namespace Mode

def inside (m : Mode) : Bool := m ≠ .outside

/-- The characters of a text that is read from a mode on, each with whether it is read inside a
string. -/
def located : Mode → List Char → List (Char × Bool)
  | _, [] => []
  | m, c :: rest => (c, m.inside) :: located (m.next c) rest

theorem located_append (m : Mode) (text more : List Char) :
    m.located (text ++ more) = m.located text ++ (m.after text).located more := by
  induction text generalizing m with
  | nil => rfl
  | cons c text ih => simp [located, ih]

theorem map_fst_located (m : Mode) (text : List Char) :
    (m.located text).map Prod.fst = text := by
  induction text generalizing m with
  | nil => rfl
  | cons c text ih => simp [located, ih]

end Mode

theorem Lexeme.located_eq (inside : Bool) (text : List Char) :
    located inside text = (if inside then Mode.inString else .outside).located text := by
  fun_induction located inside text with
  | case1 inside => cases inside <;> rfl
  | case2 c rest ih =>
      by_cases hquote : c = '"'
      · simpa [Mode.located, Mode.inside, Mode.next, hquote] using ih
      · simpa [Mode.located, Mode.inside, Mode.next, hquote] using ih
  | case3 rest ih => simp [Mode.located, Mode.inside, Mode.next, ih]
  | case4 c rest ih => simp [Mode.located, Mode.inside, Mode.next, ih]
  | case5 c rest hquote hpair ih =>
      by_cases hslash : c = '\\'
      · cases rest with
        | nil => simp [Mode.located, Mode.inside, ih]
        | cons d rest => exact absurd rfl (hpair d rest hslash)
      · have hnext : Mode.inString.next c = .inString := by
          simp [Mode.next, hslash, show c ≠ '"' from hquote]
        simp [Mode.located, Mode.inside, hnext, ih]

theorem Lexeme.located_false (text : List Char) :
    located false text = Mode.outside.located text :=
  located_eq false text

theorem Lexeme.map_fst_located_false (text : List Char) :
    (located false text).map Prod.fst = text := by
  rw [located_false, Mode.map_fst_located]

/-! ## Lexemes keep what is inside strings -/

@[simp] theorem quoted_nil : quoted [] = [] := rfl

@[simp] theorem quoted_singleton (c : Char) : quoted [c] = [] := by
  simp [quoted, located]

theorem quoted_append (text more : List Char) :
    quoted (text ++ more) =
      quoted text ++ (((Mode.outside.after text).located more).filter Prod.snd).map Prod.fst := by
  simp [quoted, located_false, Mode.located_append]

theorem quoted_snoc (text : List Char) (c : Char) :
    quoted (text ++ [c]) =
      quoted text ++ if (Mode.outside.after text).inside then [c] else [] := by
  rw [quoted_append]
  cases hinside : (Mode.outside.after text).inside <;> simp [Mode.located, hinside]

theorem Scan.flatMap_quoted_step {s : Scan} (h : s.Tracks) (c : Char) :
    (s.step true c).lexemes.flatMap quoted =
      s.lexemes.flatMap quoted ++ if s.mode.inside then [c] else [] := by
  rcases s.step_cases c with ⟨_, hstep⟩ | ⟨hmode, _, hstep⟩ | ⟨hmode, rfl, hstep⟩ |
    ⟨hmode, _, hstep⟩
  · rw [hstep, flatMap_lexemes quoted quoted_nil, flatMap_lexemes quoted quoted_nil s,
      List.reverse_cons, quoted_snoc, h, List.append_assoc]
  · have hinside : s.mode.inside = false := by rw [hmode]; rfl
    simp [hstep, hinside]
  · have hinside : s.mode.inside = false := by rw [hmode]; rfl
    rw [hstep, flatMap_lexemes quoted quoted_nil, flatMap_lexemes quoted quoted_nil s]
    have hpiece := quoted_snoc s.piece.reverse '('
    rw [h, hinside] at hpiece
    simp [hinside, hpiece]
  · have hinside : s.mode.inside = false := by rw [hmode]; rfl
    rw [hstep, flatMap_lexemes quoted quoted_nil]
    simp [hinside, lexemes]

theorem Scan.flatMap_quoted_extend {s : Scan} (h : s.Tracks) (text : List Char) :
    (s.extend true text).lexemes.flatMap quoted =
      s.lexemes.flatMap quoted ++ ((s.mode.located text).filter Prod.snd).map Prod.fst := by
  induction text generalizing s with
  | nil => simp [Mode.located]
  | cons c text ih =>
      rw [extend_cons, ih (h.step c), flatMap_quoted_step h, mode_step]
      cases hinside : s.mode.inside <;> simp [Mode.located, hinside]

/-- Splitting loses no character inside a string, and moves none. -/
theorem flatMap_quoted_scan (text : List Char) :
    (scan true text).flatMap quoted = quoted text := by
  rw [scan, Scan.flatMap_quoted_extend Scan.tracks_start, quoted, located_false]
  rfl

end SchemeLexer
