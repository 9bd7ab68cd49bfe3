import SchemeLexer.Proofs.Conversion.Faults
/-!
# JSON text as the text of a mapping

The token of a JSON text is that of the mapping which the text denotes. Faults are told in terms of
the text: that it cannot be read, that it is not the text of a mapping, or what is wrong with the
mapping. Only an unknown kind is reported as it is. Nothing else can go wrong with a text, since
what is read from it can be shown.
-/

namespace SchemeLexer.Json

/-- The fault of the text `s` for a fault of the value `v` that it denotes. -/
def inTermsOfText (s : Text) (v : Value) : Fault → Fault
  | .invalidMapping message _ =>
      if Mapping.isTokenMapping v then .invalidJson message (.text s)
      else .invalidJson (.text "JSON does not encode a token mapping") (.text s)
  | fault => fault

section

variable [Budget]

theorem settle_invalidJson_text (message s : Text) :
    (Fault.invalidJson (.text message) (.text s)).settle =
      .invalidJson (.text message) (.text s) :=
  Fault.settle_of_message rfl

theorem toToken_of_load_error {s : Text} {reason : String} (h : load (.text s) = .error reason) :
    toToken (.text s) = .error (.invalidJson (.text (unreadable reason)) (.text s)) := by
  simp only [toToken, loadToken, h, Fault.raise, Source.shown, settle_invalidJson_text]

theorem mappingToken_of_load {s : Text} {v : Value} (h : load (.text s) = .ok v) :
    (∃ t, Mapping.toToken v = .ok t ∧ Mapping.isTokenMapping v = true) ∨
    (∃ kind, Mapping.toToken v = .error (.unknownKind kind) ∧ Mapping.isTokenMapping v = true) ∨
    ∃ message, Mapping.toToken v = .error (.invalidMapping (.text message) v) := by
  rcases Mapping.toToken_cases v with htoken | hmessage | ⟨entries, kind, rfl, hkind, htoken, hkeys⟩
  · exact Or.inl htoken
  · exact Or.inr (Or.inr hmessage)
  · -- a kind that was read is never too deep to be shown
    rw [settle_unknownKind_of_load h hkind] at htoken
    exact Or.inr (Or.inl ⟨kind, htoken, hkeys⟩)

/-- Reading the token of a text is reading its value and taking the token of that, up to the terms
in which faults are told. -/
theorem toToken_of_load {s : Text} {v : Value} (h : load (.text s) = .ok v) :
    toToken (.text s) = (Mapping.toToken v).mapError (inTermsOfText s v) := by
  rw [toToken, loadToken, h]
  rcases mappingToken_of_load h with ⟨t, htoken, hkeys⟩ | ⟨kind, htoken, hkeys⟩ | ⟨message, htoken⟩
  · simp only [htoken, hkeys, if_true]
    rfl
  · simp only [htoken, hkeys, if_true]
    rfl
  · cases hkeys : Mapping.isTokenMapping v with
    | true =>
        simp only [htoken, if_true, Fault.raise, Source.toValue, settle_invalidJson_text,
          Except.mapError, inTermsOfText, hkeys]
    | false =>
        simp only [htoken, Bool.false_eq_true, if_false, Fault.raise, Source.toValue,
          settle_invalidJson_text, Except.mapError, inTermsOfText, hkeys]

end

/-- The message is about what a text denotes, and not about reading it. -/
def AboutContent (message : String) : Prop :=
  ∀ reason, message ≠ unreadable reason

theorem head?_toList_append {text : String} {c : Char} (h : text.toList.head? = some c)
    (rest : String) : (text ++ rest).toList.head? = some c := by
  rw [String.toList_append, List.head?_append, h]
  rfl

theorem aboutContent_of_head? {message : String} {c : Char}
    (h : message.toList.head? = some c) (hc : c ≠ 'C') : AboutContent message := by
  rintro reason rfl
  have hfirst : (unreadable reason).toList.head? = some 'C' :=
    head?_toList_append (by simp) reason
  exact hc (Option.some.inj (h.symm.trans hfirst))

theorem aboutContent_notMapping : AboutContent "JSON does not encode a token mapping" :=
  aboutContent_of_head? (c := 'J') (by simp) (by decide)

theorem aboutContent_badLiteral (literal : Value) :
    AboutContent (Mapping.badLiteral literal) :=
  aboutContent_of_head? (c := 'T') (head?_toList_append (by simp) _) (by decide)

variable [Budget]

theorem fault_of_load {s : Text} {found : Value} {fault : Fault}
    (hload : load (.text s) = .ok found) (h : toToken (.text s) = .error fault) :
    (∃ message : String, fault = .invalidJson (.text message) (.text s) ∧ AboutContent message) ∨
      ∃ kind, fault = .unknownKind kind := by
  rw [toToken_of_load hload] at h
  by_cases hkeys : Mapping.HasKeys found
  · have hmapping := Mapping.isTokenMapping_iff.2 hkeys
    obtain ⟨entries, kind, literal, rfl, hkind, hliteral⟩ := hkeys
    rcases Mapping.toToken_of_keys hkind hliteral with ⟨t, htoken⟩ | htoken | htoken
    · rw [htoken] at h
      cases h
    · rw [htoken, Except.mapError, inTermsOfText, if_pos hmapping] at h
      cases h
      exact Or.inl ⟨_, rfl, aboutContent_badLiteral literal⟩
    · rw [htoken, settle_unknownKind_of_load hload hkind] at h
      cases h
      exact Or.inr ⟨kind, rfl⟩
  · have hmapping : ¬Mapping.isTokenMapping found = true := mt Mapping.isTokenMapping_iff.1 hkeys
    obtain ⟨message, htoken⟩ := Mapping.toToken_of_not_hasKeys hkeys
    rw [htoken, Except.mapError, inTermsOfText, if_neg hmapping] at h
    cases h
    exact Or.inl ⟨_, rfl, aboutContent_notMapping⟩

theorem fault_of_toToken_text {s : Text} {fault : Fault} (h : toToken (.text s) = .error fault) :
    (∃ message, fault = .invalidJson message (.text s)) ∨ ∃ kind, fault = .unknownKind kind := by
  cases hload : load (.text s) with
  | error reason =>
      rw [toToken_of_load_error hload] at h
      cases h
      exact Or.inl ⟨_, rfl⟩
  | ok v =>
      rcases fault_of_load hload h with ⟨message, hfault, -⟩ | hkind
      · exact Or.inl ⟨_, hfault⟩
      · exact Or.inr hkind

/-- The token of a text is that of the mapping it denotes, and so is an unknown kind. A text that
cannot be read is itself at fault, and it is blamed for what is wrong with the mapping too: in the
words of the mapping if that has both keys, and otherwise for not being one. Nothing but these
faults is reported about a text. -/
theorem toToken_text_by_mapping (s : Text) :
    (∀ reason, load (.text s) = .error reason →
      toToken (.text s) = .error (.invalidJson (.text (unreadable reason)) (.text s))) ∧
    (∀ v, load (.text s) = .ok v →
      (∀ t, Mapping.toToken v = .ok t → toToken (.text s) = .ok t) ∧
      (∀ kind, Mapping.toToken v = .error (.unknownKind kind) →
        toToken (.text s) = .error (.unknownKind kind)) ∧
      (∀ message mapping, Mapping.toToken v = .error (.invalidMapping message mapping) →
        (Mapping.HasKeys v → toToken (.text s) = .error (.invalidJson message (.text s))) ∧
        (¬Mapping.HasKeys v →
          toToken (.text s) =
            .error (.invalidJson (.text "JSON does not encode a token mapping") (.text s)))) ∧
      ((∃ t, Mapping.toToken v = .ok t) ∨
        (∃ kind, Mapping.toToken v = .error (.unknownKind kind)) ∨
        ∃ message mapping, Mapping.toToken v = .error (.invalidMapping message mapping))) ∧
    ∀ fault, toToken (.text s) = .error fault →
      (∃ message, fault = .invalidJson message (.text s)) ∨ ∃ kind, fault = .unknownKind kind := by
  refine ⟨fun reason => toToken_of_load_error, ?_, fun fault => fault_of_toToken_text⟩
  intro v hload
  rw [toToken_of_load hload]
  refine ⟨?_, ?_, ?_, ?_⟩
  · intro t htoken
    rw [htoken]
    rfl
  · intro kind htoken
    rw [htoken]
    rfl
  · intro message mapping htoken
    rw [htoken, Except.mapError, inTermsOfText, ← Mapping.isTokenMapping_iff]
    exact ⟨fun hkeys => by rw [if_pos hkeys], fun hkeys => by rw [if_neg hkeys]⟩
  · rcases mappingToken_of_load hload with ⟨t, htoken, -⟩ | ⟨kind, htoken, -⟩ | ⟨message, htoken⟩
    · exact Or.inl ⟨t, htoken⟩
    · exact Or.inr (Or.inl ⟨kind, htoken⟩)
    · exact Or.inr (Or.inr ⟨_, _, htoken⟩)

end SchemeLexer.Json
