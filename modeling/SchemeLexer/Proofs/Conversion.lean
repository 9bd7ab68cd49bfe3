import SchemeLexer.Proofs.Cursor.Moves
import SchemeLexer.Proofs.Json.RoundTrip
/-!
# Tokens survive their representations

What a representation writes it also recognises and reads back, unless the literal holds a pair of
surrogates, which JSON text joins to a character. A sequence therefore comes back whole from any
representation, although only its first element says which one it is in, and a cursor can be built
anew from what another one hands out.
-/

namespace SchemeLexer

namespace Representation

theorem encode_ne_null (r : Representation) (t : Token) : r.encode t ≠ .null := by
  cases r <;> exact Value.noConfusion

variable [Budget]

theorem detect_encode (r : Representation) {t : Token} (h : t.Unpaired) :
    detect (r.encode t) = .ok r := by
  cases r with
  | record => rfl
  | mapping => rfl
  | jsonText =>
      have hjson := Json.isJson_toJson h Json.Layout.blank_compact
      simp [encode, detect, hjson]

theorem decode_encode (r : Representation) {t : Token} (h : t.Unpaired) :
    r.decode (r.encode t) = .ok (.ofToken t) := by
  cases r with
  | record => rfl
  | mapping =>
      rw [decode, encode, Mapping.toToken_ofToken]
      rfl
  | jsonText =>
      rw [decode, encode, Json.toToken_toJson h Json.Layout.blank_compact]
      rfl

theorem mapM_decode_encode (r : Representation) {tokens : List Token}
    (h : ∀ t ∈ tokens, t.Unpaired) :
    (tokens.map r.encode).mapM r.decode = .ok (tokens.map .ofToken) := by
  induction tokens with
  | nil => rfl
  | cons t tokens ih =>
      obtain ⟨ht, htokens⟩ := List.forall_mem_cons.1 h
      rw [List.map_cons, List.mapM_cons, decode_encode r ht, ih htokens]
      rfl

theorem decodeAll_cons_of_ok {first : Value} {rest : List Value} {r : Representation}
    {tokens : List Record} (hdetect : detect first = .ok r)
    (hall : (first :: rest).mapM r.decode = .ok tokens) :
    decodeAll (first :: rest) = .ok (tokens, some r) := by
  simp only [decodeAll, hdetect, bind, Except.bind] at hall ⊢
  rw [hall]
  rfl

theorem decodeAll_map_encode (r : Representation) {tokens : List Token}
    (h : ∀ t ∈ tokens, t.Unpaired) :
    decodeAll (tokens.map r.encode) =
      .ok (tokens.map .ofToken, if tokens.isEmpty then none else some r) := by
  cases tokens with
  | nil => rfl
  | cons t tokens =>
      exact decodeAll_cons_of_ok (detect_encode r (h t List.mem_cons_self)) (mapM_decode_encode r h)

theorem mapM_decode_value (tokens : List Record) :
    (tokens.map Record.value).mapM (decode .record) = .ok tokens := by
  induction tokens with
  | nil => rfl
  | cons t tokens ih =>
      rw [List.map_cons, List.mapM_cons, ih]
      rfl

theorem decodeAll_map_value (tokens : List Record) :
    decodeAll (tokens.map Record.value) =
      .ok (tokens, if tokens.isEmpty then none else some .record) := by
  cases tokens with
  | nil => rfl
  | cons t tokens => exact decodeAll_cons_of_ok rfl (mapM_decode_value (t :: tokens))

end Representation

namespace Cursor

variable [Budget]

/-- What is built from a list of values that describe tokens, in a representation that is given. -/
theorem build_list {values : List Value} {tokens : List Record}
    {form : Option Representation} (h : Representation.decodeAll values = .ok (tokens, form))
    (settings : Settings) (r : Representation) (legacyPadding : Value) :
    build settings (.list values) (.representation r) legacyPadding =
      .ok (start tokens.toArray r, .converted tokens.length form) := by
  have hcoerce : Representation.coerce
      (orElse (.representation r) settings.representation) = .ok r := rfl
  simp only [build, hcoerce, Value.elements?, h, bind, Except.bind]
  rfl

end Cursor

/-- Encoded tokens come back whatever the representation is, so that a cursor built from the values
that another one hands out has the same tokens, wherever that one stands. -/
theorem build_of_encoded [Budget] :
    (∀ (tokens : List Token) (r : Representation), (∀ t ∈ tokens, t.Unpaired) →
      Representation.decodeAll (tokens.map r.encode) =
        .ok (tokens.map .ofToken, if tokens.isEmpty then none else some r)) ∧
    ∀ (tokens : List Token) (size current next : Nat) (own : Representation) (settings : Settings)
      (r : Representation) (legacyPadding : Value), (∀ t ∈ tokens, t.Unpaired) →
      ∃ values,
        (Cursor.mk (tokens.map .ofToken).toArray size current next own).toList = .ok values ∧
          Cursor.build settings (.list values) (.representation r) legacyPadding =
            .ok (Cursor.ofTokens tokens r,
              .converted tokens.length (if tokens.isEmpty then none else some own)) := by
  refine ⟨fun tokens r h => Representation.decodeAll_map_encode r h, ?_⟩
  intro tokens size current next own settings r legacyPadding h
  refine ⟨tokens.map own.encode, Cursor.toList_of_tokens rfl, ?_⟩
  have hvalues := Representation.decodeAll_map_encode own h
  simpa [Cursor.ofTokens] using Cursor.build_list hvalues settings r legacyPadding

/-- A character beyond the surrogates and one that is a lone surrogate, in JSON text. -/
theorem build_of_encoded_mixed :
    let tokens : List Token :=
      [⟨.string, some "\"λ😀\""⟩, ⟨.illegal, some (.wide ⟨[.surrogate 0xd83d rfl], rfl⟩)⟩]
    Representation.decodeAll (tokens.map Representation.jsonText.encode) =
        .ok (tokens.map .ofToken, some .jsonText) ∧
      ∃ values, (Cursor.ofTokens tokens .jsonText).toList = .ok values ∧
        Cursor.build .default (.list values) (.representation .mapping) .null =
          .ok (Cursor.ofTokens tokens .mapping, .converted 2 (some .jsonText)) := by
  intro tokens
  have htokens : ∀ t ∈ tokens, t.Unpaired := by
    refine List.forall_mem_cons.2 ⟨Token.unpaired_plain .string (some "\"λ😀\""), ?_⟩
    refine List.forall_mem_singleton.2 ?_
    rintro s ⟨⟩
    decide
  exact ⟨build_of_encoded.1 tokens .jsonText htokens,
    build_of_encoded.2 tokens 2 0 0 .jsonText .default .mapping .null htokens⟩

end SchemeLexer
