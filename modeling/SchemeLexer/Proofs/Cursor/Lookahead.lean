import SchemeLexer.Proofs.Conversion
import SchemeLexer.Proofs.Cursor.Advances
/-!
# Looking ahead and reading

Looking ahead fails only when no token is left at all, and a read already when the token that it
wants is not there. The two therefore part between the last token and the end, where looking ahead
answers null. That a cursor which has read everything stands exactly at the number of its tokens is
part of the invariant, and it makes the positions in the faults those of the end.
-/

namespace SchemeLexer.Cursor

section

variable [Budget]

/-! ## Offsets below zero -/

theorem lookahead_of_neg {c : Cursor} {offset : Int} (h : offset < 0) :
    c.lookahead offset = .error (backward offset) := by
  rw [lookahead, if_pos h, Fault.raise, settle_negativeOffset]

theorem perform_of_neg (c : Cursor) {offset : Int} (h : offset < 0) :
    (c.perform (.next offset)).1 = .error (backward offset) ∧
      (c.perform (.skip offset)).1 = .error (backward offset) ∧
      (c.perform (.peek offset)).1 = .error (backward offset) := by
  have hadvance : c.advance offset = .error (backward offset) := advance_of_neg h
  refine ⟨?_, ?_, lookahead_of_neg h⟩
  · rw [perform, hadvance]
  · rw [perform, hadvance]

/-! ## Looking ahead -/

theorem perform_peek_of_exhausted {c : Cursor} (k : Nat) (h : c.remaining = 0) :
    (c.perform (.peek k)).1 = .error (pastEnd c.next c.size) := by
  have hsign : ¬(k : Int) < 0 := by omega
  have hend : c.size ≤ c.next := by
    rw [remaining] at h
    omega
  rw [perform, lookahead, if_neg hsign, if_pos hend, Fault.raise, settle_endOfStream hend]

theorem perform_peek_of_remaining {c : Cursor} (k : Nat) (h : 0 < c.remaining) :
    (c.perform (.peek k)).1 =
      if c.size ≤ c.next + k then .ok .null else c.tokenAt (c.next + k) := by
  have hsign : ¬(k : Int) < 0 := by omega
  have hend : ¬c.size ≤ c.next := by
    rw [remaining] at h
    omega
  rw [perform, lookahead, if_neg hsign, if_neg hend]
  rfl

theorem perform_peek_of_le {c : Cursor} {k : Nat} (h : c.size ≤ c.next + k)
    (hremaining : 0 < c.remaining) : (c.perform (.peek k)).1 = .ok .null := by
  rw [perform_peek_of_remaining k hremaining, if_pos h]

theorem perform_next_of_le {c : Cursor} {k : Nat} (h : c.size ≤ c.next + k) :
    (c.perform (.next k)).1 = .error (pastEnd (c.next + k) c.size) :=
  congrArg Prod.fst (perform_advance_of_le (a := .next k) h)

variable {c : Cursor} {tokens : List Token}

theorem perform_peek_of_lt (hover : c.Over tokens) {k : Nat} (h : c.next + k < tokens.length) :
    (c.perform (.peek k)).1 = .ok (c.representation.encode tokens[c.next + k]) := by
  have hlt : c.next + k < c.size := by rwa [hover.size_eq]
  have hremaining : 0 < c.remaining := by
    rw [remaining]
    omega
  rw [perform_peek_of_remaining k hremaining, if_neg (Nat.not_le.2 hlt), hover.tokenAt h]

theorem perform_next_of_lt (hover : c.Over tokens) {k : Nat} (h : c.next + k < tokens.length) :
    (c.perform (.next k)).1 = .ok (c.representation.encode tokens[c.next + k]) :=
  congrArg Prod.fst (perform_advance_of_lt hover (a := .next k) h)

theorem perform_peek_error_iff (hover : c.Over tokens) (k : Nat) :
    (∃ fault, (c.perform (.peek k)).1 = .error fault) ↔ c.remaining = 0 := by
  rcases Nat.eq_zero_or_pos c.remaining with hremaining | hremaining
  · exact iff_of_true ⟨_, perform_peek_of_exhausted k hremaining⟩ hremaining
  · refine iff_of_false ?_ (Nat.ne_of_gt hremaining)
    by_cases hposition : c.next + k < tokens.length
    · rw [perform_peek_of_lt hover hposition]
      rintro ⟨fault, ⟨⟩⟩
    · rw [perform_peek_of_le (by rw [hover.size_eq]; exact Nat.not_lt.1 hposition) hremaining]
      rintro ⟨fault, ⟨⟩⟩

/-! ## Both together -/

theorem perform_next_ok_iff (hover : c.Over tokens) (k : Nat) (v : Value) :
    (c.perform (.next k)).1 = .ok v ↔ (c.perform (.peek k)).1 = .ok v ∧ v ≠ .null := by
  by_cases hposition : c.next + k < tokens.length
  · rw [perform_next_of_lt hover hposition, perform_peek_of_lt hover hposition]
    constructor
    · intro hv
      cases hv
      exact ⟨rfl, Representation.encode_ne_null _ _⟩
    · exact And.left
  · have hend : c.size ≤ c.next + k := by
      rw [hover.size_eq]
      exact Nat.not_lt.1 hposition
    rw [perform_next_of_le hend]
    -- the read fails, and looking ahead answers null at best
    refine iff_of_false (by rintro ⟨⟩) ?_
    rintro ⟨hpeek, hnull⟩
    rcases Nat.eq_zero_or_pos c.remaining with hremaining | hremaining
    · rw [perform_peek_of_exhausted k hremaining] at hpeek
      cases hpeek
    · rw [perform_peek_of_le hend hremaining] at hpeek
      cases hpeek
      exact hnull rfl

theorem perform_peek_null_iff (hover : c.Over tokens) (k : Nat) :
    (c.perform (.peek k)).1 = .ok .null ↔
      0 < c.remaining ∧ (c.perform (.next k)).1 = .error (pastEnd (c.next + k) c.size) := by
  by_cases hposition : c.next + k < tokens.length
  · rw [perform_peek_of_lt hover hposition, perform_next_of_lt hover hposition]
    refine iff_of_false ?_ (by rintro ⟨-, ⟨⟩⟩)
    exact fun hnull => Representation.encode_ne_null _ _ (Except.ok.inj hnull)
  · have hend : c.size ≤ c.next + k := by
      rw [hover.size_eq]
      exact Nat.not_lt.1 hposition
    constructor
    · intro hnull
      refine ⟨Nat.pos_of_ne_zero fun hremaining => ?_, perform_next_of_le hend⟩
      rw [perform_peek_of_exhausted k hremaining] at hnull
      cases hnull
    · exact fun h => perform_peek_of_le hend h.1

omit [Budget] in
theorem Positioned.next_le (h : c.Positioned) : c.next ≤ c.size := by
  rcases h with ⟨-, hnext⟩ | ⟨hnext, hcurrent⟩
  · rw [hnext]
    exact Nat.zero_le _
  · rw [hnext]
    exact hcurrent

theorem Positioned.perform_of_exhausted (h : c.Positioned) (hend : c.remaining = 0)
    (k : Nat) :
    (c.perform (.peek k)).1 = .error (pastEnd c.size c.size) ∧
      (c.perform (.next k)).1 = .error (pastEnd (c.size + k) c.size) ∧
      (c.perform (.skip k)).1 = .error (pastEnd (c.size + k) c.size) := by
  -- only here the way in which the cursor came to its state matters
  have hnext : c.next = c.size := by
    have hle := h.next_le
    rw [remaining] at hend
    omega
  have hpeek := perform_peek_of_exhausted k hend
  have hpast : c.size ≤ c.next + k := by omega
  have hread := perform_next_of_le hpast
  have hskip : (c.perform (.skip k)).1 = .error (pastEnd (c.next + k) c.size) :=
    congrArg Prod.fst (perform_advance_of_le (a := .skip k) hpast)
  rw [hnext] at hpeek hread hskip
  exact ⟨hpeek, hread, hskip⟩

/-- In every state that a built cursor comes to, looking ahead says what a read of the same offset
answers: the token that it reads, null where it fails although tokens are left, and a fault where
none is left. Offsets below zero are refused in every state. -/
theorem peek_agrees_with_next {c : Cursor} (h : Built c) (operations : List Operation) :
    (∀ k : Nat,
      (∀ v, ((c.after operations).perform (.peek k)).1 = .ok v ∧ v ≠ .null ↔
        ((c.after operations).perform (.next k)).1 = .ok v) ∧
      (((c.after operations).perform (.peek k)).1 = .ok .null ↔
        0 < (c.after operations).remaining ∧
          ((c.after operations).perform (.next k)).1 =
            .error (pastEnd ((c.after operations).next + k) c.size)) ∧
      ((∃ fault, ((c.after operations).perform (.peek k)).1 = .error fault) ↔
        (c.after operations).remaining = 0) ∧
      ((c.after operations).remaining = 0 →
        ((c.after operations).perform (.peek k)).1 = .error (pastEnd c.size c.size) ∧
        ((c.after operations).perform (.next k)).1 = .error (pastEnd (c.size + k) c.size) ∧
        ((c.after operations).perform (.skip k)).1 = .error (pastEnd (c.size + k) c.size))) ∧
    ∀ offset : Int, offset < 0 →
      ((c.after operations).perform (.next offset)).1 = .error (backward offset) ∧
      ((c.after operations).perform (.skip offset)).1 = .error (backward offset) ∧
      ((c.after operations).perform (.peek offset)).1 = .error (backward offset) := by
  have hsize : (c.after operations).size = c.size := (sameContents_after c operations).2.1
  have hpositioned := h.positioned.after operations
  obtain ⟨tokens, hbuilt⟩ := h.exists_over
  have hover := hbuilt.after operations
  rw [← hsize]
  refine ⟨fun k => ⟨fun v => (perform_next_ok_iff hover k v).symm, perform_peek_null_iff hover k,
    perform_peek_error_iff hover k, fun hend => hpositioned.perform_of_exhausted hend k⟩, ?_⟩
  exact fun offset hoffset => perform_of_neg _ hoffset

end

/-- All of two tokens are read, and another read and a look ahead fail at different positions. -/
theorem peek_agrees_with_next_exhausted :
    Built (ofTokens [⟨.lparen, some "("⟩, ⟨.dot, none⟩] .mapping) ∧
      (((ofTokens [⟨.lparen, some "("⟩, ⟨.dot, none⟩] .mapping).after
          [.next 5, .skip 1]).perform (.peek 3)).1 = .error (.endOfStream (.int 2) (.int 2)) ∧
      (((ofTokens [⟨.lparen, some "("⟩, ⟨.dot, none⟩] .mapping).after
          [.next 5, .skip 1]).perform (.next 3)).1 = .error (.endOfStream (.int 5) (.int 2)) ∧
      (((ofTokens [⟨.lparen, some "("⟩, ⟨.dot, none⟩] .mapping).after
          [.next 5, .skip 1]).perform (.peek (-3))).1 = .error (.negativeOffset (-3)) := by
  have hbuild : build .default (.tuple [.token ⟨.lparen, some "("⟩, .token ⟨.dot, none⟩])
      (.representation .mapping) .null =
        .ok (ofTokens [⟨.lparen, some "("⟩, ⟨.dot, none⟩] .mapping,
          .converted 2 (some .record)) := rfl
  have hbuilt := Built.build hbuild rfl
  obtain ⟨hoffsets, hbackward⟩ := peek_agrees_with_next hbuilt [.next 5, .skip 1]
  obtain ⟨hpeek, hread, -⟩ := (hoffsets 3).2.2.2 rfl
  exact ⟨hbuilt, hpeek, hread, (hbackward (-3) (by decide)).2.2⟩

/-- A token is left and a read goes past it, but what is reported is that the position has too many
digits to be shown. -/
theorem peek_null_beyond_digits :
    let c : Cursor := ⟨#[⟨.identifier, .text "a"⟩, ⟨.identifier, .text "b"⟩], 2, 0, 1, .record⟩
    (ofTokens [⟨.identifier, some "a"⟩, ⟨.identifier, some "b"⟩] .record).after [.next 0] = c ∧
      0 < c.remaining ∧
      (c.perform (.peek (Nat.pow 10 digitLimit - 1 : Nat))).1 = .ok .null ∧
      (c.perform (.next (Nat.pow 10 digitLimit - 1 : Nat))).1 =
        .error (.defective .hugeInteger) := by
  intro c
  have hdigits : ¬(Nat.toDigits 10 (Nat.pow 10 digitLimit)).length ≤ digitLimit :=
    not_digits_pow_le (by decide)
  -- From here on the number matters only by its digits.
  generalize Nat.pow 10 digitLimit = n at hdigits
  have hlarge : 2 ≤ n := by
    rcases Nat.lt_or_ge n 2 with hsmall | hlarge
    · exact absurd (digits_le_of_le (Nat.le_of_lt_succ hsmall) (by decide)) hdigits
    · exact hlarge
  have hposition : c.next + (n - 1) = n := by
    have hnext : c.next = 1 := rfl
    omega
  have hend : c.size ≤ c.next + (n - 1) := by
    rw [hposition]
    exact hlarge
  have hread := perform_next_of_le hend
  rw [hposition, pastEnd, if_neg hdigits] at hread
  exact ⟨rfl, by decide, perform_peek_of_le hend (by decide), hread⟩

end SchemeLexer.Cursor
