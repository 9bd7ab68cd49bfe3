import SchemeLexer.Proofs.Classification.Overlap
/-!
# The grammar of identifiers

The productions of the lexical grammar as an inductive predicate, and what the reader of
identifiers accepts beyond it: a lone dot, and a sign followed by a lone dot. Of the lexemes that
it accepts, all are classified as identifiers but those that an earlier rule takes.
-/

namespace SchemeLexer

namespace Identifier

/-- The text is one that the productions for identifiers derive. -/
inductive Derived : List Char → Prop where
  | ordinary {c : Char} {rest : List Char} (hc : Charset.isInitial c = true)
      (hrest : ∀ d ∈ rest, Charset.isSubsequent d = true) : Derived (c :: rest)
  | sign {s : Char} (hs : Charset.isExplicitSign s = true) : Derived [s]
  | signed {s c : Char} {rest : List Char} (hs : Charset.isExplicitSign s = true)
      (hc : Charset.isSignSubsequent c = true)
      (hrest : ∀ d ∈ rest, Charset.isSubsequent d = true) : Derived (s :: c :: rest)
  | signedDot {s c : Char} {rest : List Char} (hs : Charset.isExplicitSign s = true)
      (hc : Charset.isDotSubsequent c = true)
      (hrest : ∀ d ∈ rest, Charset.isSubsequent d = true) : Derived (s :: '.' :: c :: rest)
  | dotted {c : Char} {rest : List Char} (hc : Charset.isDotSubsequent c = true)
      (hrest : ∀ d ∈ rest, Charset.isSubsequent d = true) : Derived ('.' :: c :: rest)

/-- The texts that are accepted although no production derives them. -/
def underived : List (List Char) := [['.'], ['+', '.'], ['-', '.']]

/-! ## What may follow -/

theorem afterDot_iff {rest : List Char} :
    afterDot rest = true ↔
      rest = [] ∨ ∃ c tail, rest = c :: tail ∧ Charset.isDotSubsequent c = true ∧
        ∀ d ∈ tail, Charset.isSubsequent d = true := by
  cases rest with
  | nil => simp [afterDot]
  | cons c tail => simp [afterDot]

theorem afterSign_iff {rest : List Char} :
    afterSign rest = true ↔
      rest = [] ∨ (∃ tail, rest = '.' :: tail ∧ afterDot tail = true) ∨
        ∃ c tail, rest = c :: tail ∧ Charset.isSignSubsequent c = true ∧
          ∀ d ∈ tail, Charset.isSubsequent d = true := by
  cases rest with
  | nil => simp [afterSign]
  | cons c tail =>
      by_cases hdot : c = '.'
      · have hsign : Charset.isSignSubsequent '.' = false := by decide
        simp [afterSign, hdot, hsign]
      · simp [afterSign, hdot]

/-! ## First characters exclude each other -/

theorem isExplicitSign_iff {c : Char} : Charset.isExplicitSign c = true ↔ c = '+' ∨ c = '-' := by
  simp [Charset.isExplicitSign]

theorem accepts_of_initial {c : Char} (rest : List Char) (h : Charset.isInitial c = true) :
    accepts (c :: rest) = rest.all Charset.isSubsequent := by
  simp [accepts, h]

theorem accepts_of_sign {s : Char} (rest : List Char) (h : Charset.isExplicitSign s = true) :
    accepts (s :: rest) = afterSign rest := by
  have hinitial : Charset.isInitial s = false := by
    rcases isExplicitSign_iff.1 h with rfl | rfl <;> decide
  simp [accepts, hinitial, h]

theorem accepts_of_dot (rest : List Char) : accepts ('.' :: rest) = afterDot rest := by
  have hinitial : Charset.isInitial '.' = false := by decide
  have hsign : Charset.isExplicitSign '.' = false := by decide
  simp [accepts, hinitial, hsign]

/-! ## The reader and the productions -/

theorem accepts_of_derived {lexeme : List Char} (h : Derived lexeme) : accepts lexeme = true := by
  cases h with
  | ordinary hc hrest =>
      rw [accepts_of_initial _ hc]
      exact List.all_eq_true.2 hrest
  | sign hs =>
      rw [accepts_of_sign _ hs]
      rfl
  | signed hs hc hrest =>
      rw [accepts_of_sign _ hs, afterSign_iff]
      exact Or.inr (Or.inr ⟨_, _, rfl, hc, hrest⟩)
  | signedDot hs hc hrest =>
      rw [accepts_of_sign _ hs, afterSign_iff]
      exact Or.inr (Or.inl ⟨_, rfl, afterDot_iff.2 (Or.inr ⟨_, _, rfl, hc, hrest⟩)⟩)
  | dotted hc hrest =>
      rw [accepts_of_dot, afterDot_iff]
      exact Or.inr ⟨_, _, rfl, hc, hrest⟩

theorem derived_of_afterSign {s : Char} {rest : List Char}
    (hs : Charset.isExplicitSign s = true) (h : afterSign rest = true) :
    Derived (s :: rest) ∨ s :: rest ∈ underived := by
  rcases afterSign_iff.1 h with rfl | ⟨tail, rfl, hdot⟩ | ⟨c, tail, rfl, hc, htail⟩
  · exact Or.inl (.sign hs)
  · rcases afterDot_iff.1 hdot with rfl | ⟨c, tail, rfl, hc, htail⟩
    · -- the dot stands alone after the sign
      right
      rcases isExplicitSign_iff.1 hs with rfl | rfl <;> decide
    · exact Or.inl (.signedDot hs hc htail)
  · exact Or.inl (.signed hs hc htail)

theorem derived_of_accepts {lexeme : List Char} (h : accepts lexeme = true) :
    Derived lexeme ∨ lexeme ∈ underived := by
  cases lexeme with
  | nil => cases h
  | cons c rest =>
      by_cases hinitial : Charset.isInitial c = true
      · rw [accepts_of_initial rest hinitial] at h
        exact Or.inl (.ordinary hinitial (List.all_eq_true.1 h))
      by_cases hsign : Charset.isExplicitSign c = true
      · rw [accepts_of_sign rest hsign] at h
        exact derived_of_afterSign hsign h
      by_cases hdot : c = '.'
      · subst hdot
        rw [accepts_of_dot] at h
        rcases afterDot_iff.1 h with rfl | ⟨d, tail, rfl, hd, htail⟩
        · exact Or.inr (by decide)
        · exact Or.inl (.dotted hd htail)
      · simp [accepts, hinitial, hsign, hdot] at h

theorem accepts_iff_derived {lexeme : List Char} :
    accepts lexeme = true ↔ Derived lexeme ∨ lexeme ∈ underived := by
  constructor
  · exact derived_of_accepts
  · rintro (h | h)
    · exact accepts_of_derived h
    · fin_cases h <;> decide

/-- The productions derive none of the three texts that are accepted beyond them. -/
theorem not_derived_of_mem_underived {lexeme : List Char} (h : lexeme ∈ underived) :
    ¬ Derived lexeme := by
  have hinitial : ∀ c ∈ ['.', '+', '-'], Charset.isInitial c = false := by
    intro c hc
    fin_cases hc <;> decide
  have hdot : Charset.isSignSubsequent '.' = false := by decide
  have hsign : Charset.isExplicitSign '.' = false := by decide
  intro hderived
  fin_cases h
  · cases hderived with
    | ordinary hc => simp [hinitial] at hc
    | sign hs => simp [hsign] at hs
  · cases hderived with
    | ordinary hc => simp [hinitial] at hc
    | signed _ hc => simp [hdot] at hc
  · cases hderived with
    | ordinary hc => simp [hinitial] at hc
    | signed _ hc => simp [hdot] at hc

end Identifier

/-! ## Classification -/

theorem accepts_of_classifyChars_eq_identifier {lexeme : List Char}
    (h : classifyChars lexeme = .identifier) : Identifier.accepts lexeme = true := by
  rw [classifyChars_eq] at h
  cases hlookup : Rule.delimiters.lookup lexeme with
  | some kind =>
      rw [hlookup] at h
      subst h
      have hmem := mem_delimiters_of_lookup hlookup
      simp [Rule.delimiters] at hmem
  | none =>
      rw [hlookup] at h
      dsimp only at h
      split_ifs at h with _ _ _ _ hidentifier
      exact hidentifier

theorem classifyChars_eq_identifier_iff {lexeme : List Char} :
    classifyChars lexeme = .identifier ↔
      Identifier.accepts lexeme = true ∧ lexeme ∉ Rule.contested := by
  constructor
  · intro h
    refine ⟨accepts_of_classifyChars_eq_identifier h, ?_⟩
    intro hcontested
    fin_cases hcontested <;> exact absurd h (by decide)
  · rintro ⟨haccepts, hcontested⟩
    have hkind : Rule.identifier.kind? lexeme = some .identifier := by
      simp [Rule.kind?, haccepts]
    have hidentifier : Rule.identifier.Recognises lexeme := by
      rw [Rule.Recognises, hkind]
      rfl
    have hunique : ∀ r : Rule, r.Recognises lexeme → r = .identifier := by
      intro r hr
      rw [hr.eq_candidate hcontested, hidentifier.eq_candidate hcontested]
    exact Rule.firstKind_eq_of_mem hunique Rule.identifier.mem_all hkind

theorem mem_map_toList_iff (x : String) (xs : List String) :
    x.toList ∈ xs.map String.toList ↔ x ∈ xs := by
  have hinjective : Function.Injective String.toList := fun _ _ h => String.toList_injective h
  exact List.mem_map_of_injective hinjective

/-- Identifiers are the texts that the productions derive and three more, which they do not derive:
a lone dot, alone or after a sign. All of them are classified as identifiers but the lone dot, `+i`
and `-i`. -/
theorem accepts_identifiers_exactly (x : String) :
    (Identifier.accepts x.toList = true ↔
      Identifier.Derived x.toList ∨ x ∈ [".", "+.", "-."]) ∧
    (x ∈ [".", "+.", "-."] → ¬ Identifier.Derived x.toList) ∧
    (classify x = .identifier ↔
      Identifier.accepts x.toList = true ∧ x ∉ [".", "+i", "-i"]) := by
  have hunderived : x.toList ∈ Identifier.underived ↔ x ∈ [".", "+.", "-."] :=
    mem_map_toList_iff x [".", "+.", "-."]
  have hcontested : x.toList ∈ Rule.contested ↔ x ∈ [".", "+i", "-i"] :=
    mem_map_toList_iff x [".", "+i", "-i"]
  refine ⟨?_, ?_, ?_⟩
  · rw [Identifier.accepts_iff_derived, hunderived]
  · intro hx
    exact Identifier.not_derived_of_mem_underived (hunderived.2 hx)
  · rw [classify, classifyChars_eq_identifier_iff, hcontested]

theorem accepts_identifiers_exactly_signed :
    "+." ∈ [".", "+.", "-."] ∧ ¬ Identifier.Derived "+.".toList ∧ classify "+." = .identifier ∧
      Identifier.Derived "+.a1".toList ∧ classify "+i" ≠ .identifier := by
  have hmem : "+." ∈ [".", "+.", "-."] := by decide
  obtain ⟨-, hunderived, hkind⟩ := accepts_identifiers_exactly "+."
  have hderived : Identifier.Derived "+.a1".toList :=
    ((accepts_identifiers_exactly "+.a1").1.1 (by decide)).resolve_right (by decide)
  refine ⟨hmem, hunderived hmem, hkind.2 (by decide), hderived, ?_⟩
  intro h
  exact ((accepts_identifiers_exactly "+i").2.2.1 h).2 (by decide)

end SchemeLexer
