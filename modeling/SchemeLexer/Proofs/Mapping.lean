import SchemeLexer.Mapping
/-!
# What comes of a mapping

A value is tested for the keys of a token mapping in two places: when its representation is looked
for, and when its token is. Both tests come to the same: the value is a dictionary that holds both
keys. What can then still be wrong is the literal and, after it, the kind.
-/

namespace SchemeLexer.Mapping

def HasKeys (v : Value) : Prop :=
  ∃ entries kind literal, v = .dict entries ∧ Value.lookup? entries "type" = some kind ∧
    Value.lookup? entries "literal" = some literal

theorem isTokenMapping_iff {v : Value} : isTokenMapping v = true ↔ HasKeys v := by
  constructor
  · intro h
    cases v with
    | dict entries =>
        simp only [isTokenMapping, requiredKeys, List.all_cons, List.all_nil, Bool.and_true,
          Bool.and_eq_true, Option.isSome_iff_exists] at h
        obtain ⟨⟨kind, hkind⟩, literal, hliteral⟩ := h
        exact ⟨entries, kind, literal, rfl, hkind, hliteral⟩
    | _ => cases h
  · rintro ⟨entries, kind, literal, rfl, hkind, hliteral⟩
    simp [isTokenMapping, requiredKeys, hkind, hliteral]

variable [Budget]

theorem kindOf_cases (v : Value) :
    (∃ k, kindOf v = .ok k) ∨ kindOf v = .error (Fault.unknownKind v).settle := by
  cases v with
  | kind k => exact Or.inl ⟨k, rfl⟩
  | text s =>
      cases s with
      | wide w => exact Or.inr rfl
      | plain s =>
          cases hname : Kind.ofName? s with
          | some k => exact Or.inl ⟨k, by rw [kindOf, hname]⟩
          | none => exact Or.inr (by rw [kindOf, hname]; rfl)
  | _ => exact Or.inr rfl

theorem toToken_of_keys {entries : List (Value × Value)} {kind literal : Value}
    (hkind : Value.lookup? entries "type" = some kind)
    (hliteral : Value.lookup? entries "literal" = some literal) :
    (∃ t, toToken (.dict entries) = .ok t) ∨
    toToken (.dict entries) =
      .error (.invalidMapping (.text (badLiteral literal)) (.dict entries)) ∨
    toToken (.dict entries) = .error (Fault.unknownKind kind).settle := by
  simp only [toToken, hkind, hliteral]
  -- the literal is looked at before the kind
  cases literalOf? literal with
  | none => exact Or.inr (Or.inl rfl)
  | some text =>
      rcases kindOf_cases kind with ⟨k, hk⟩ | hk
      · simp only [hk]
        exact Or.inl ⟨⟨k, text⟩, rfl⟩
      · simp only [hk]
        exact Or.inr (Or.inr rfl)

/-- Nothing but the values of the two keys matters. -/
theorem toToken_of_lookup? {entries : List (Value × Value)} {t : Token}
    (hkind : Value.lookup? entries "type" = some (.text t.kind.name))
    (hliteral : Value.lookup? entries "literal" = some (.ofText? t.literal)) :
    toToken (.dict entries) = .ok t := by
  have hname : kindOf (.text t.kind.name) = .ok t.kind := by simp [kindOf, Kind.ofName?_name]
  simp only [toToken, hkind, hliteral, literalOf?_ofText?, hname]
  rfl

theorem toToken_of_not_hasKeys {v : Value} (h : ¬HasKeys v) :
    ∃ message, toToken v = .error (.invalidMapping (.text message) v) := by
  cases v with
  | dict entries =>
      cases hkind : Value.lookup? entries "type" with
      | none =>
          refine ⟨missing (missingKeys entries), ?_⟩
          simp only [toToken, hkind]
          rfl
      | some kind =>
          cases hliteral : Value.lookup? entries "literal" with
          | none =>
              refine ⟨missing (missingKeys entries), ?_⟩
              simp only [toToken, hkind, hliteral]
              rfl
          | some literal => exact absurd ⟨entries, kind, literal, rfl, hkind, hliteral⟩ h
  | _ => exact ⟨_, rfl⟩

/-- What can come of a mapping: a token, a fault about the mapping, or one about its kind. -/
theorem toToken_cases (v : Value) :
    (∃ t, toToken v = .ok t ∧ isTokenMapping v = true) ∨
    (∃ message, toToken v = .error (.invalidMapping (.text message) v)) ∨
    ∃ entries kind, v = .dict entries ∧ Value.lookup? entries "type" = some kind ∧
      toToken v = .error (Fault.unknownKind kind).settle ∧ isTokenMapping v = true := by
  by_cases hkeys : HasKeys v
  · have hmapping := isTokenMapping_iff.2 hkeys
    obtain ⟨entries, kind, literal, rfl, hkind, hliteral⟩ := hkeys
    rcases toToken_of_keys hkind hliteral with ⟨t, htoken⟩ | htoken | htoken
    · exact Or.inl ⟨t, htoken, hmapping⟩
    · exact Or.inr (Or.inl ⟨_, htoken⟩)
    · exact Or.inr (Or.inr ⟨entries, kind, rfl, hkind, htoken, hmapping⟩)
  · exact Or.inr (Or.inl (toToken_of_not_hasKeys hkeys))

end SchemeLexer.Mapping
