import Mathlib.Tactic.SplitIfs
import SchemeLexer.Proofs.Cursor.Moves
/-!
# Where a cursor can stand

Whatever is done with a cursor, and whether it succeeds or fails, the cursor stands before its
first token or right behind one of them, its tokens and its representation stay, and the number
that it keeps is that of its tokens. A read that is checked against this number, or not at all, is
therefore a read of a token that exists.
-/

namespace SchemeLexer.Cursor

/-- A cursor stands before its first token, or right behind one of its tokens. -/
def Positioned (c : Cursor) : Prop :=
  (c.current = 0 ∧ c.next = 0) ∨ (c.next = c.current + 1 ∧ c.current < c.size)

theorem positioned_start (tokens : Array Record) (r : Representation) :
    (start tokens r).Positioned :=
  Or.inl ⟨rfl, rfl⟩

/-- The current token is read without a check, unless there are no tokens at all. -/
theorem Positioned.current_lt {c : Cursor} (h : c.Positioned) (hsize : c.size ≠ 0) :
    c.current < c.size := by
  rcases h with ⟨hcurrent, -⟩ | ⟨-, hcurrent⟩
  · omega
  · exact hcurrent

section

variable [Budget]

theorem Positioned.perform {c : Cursor} (h : c.Positioned) (operation : Operation) :
    (c.perform operation).2.Positioned := by
  rcases perform_cases c operation with hsame | hrewound | ⟨position, hposition, hmoved⟩
  · rwa [hsame]
  · rw [hrewound]
    exact Or.inl ⟨rfl, rfl⟩
  · rw [hmoved]
    exact Or.inr ⟨rfl, hposition⟩

theorem Positioned.after {c : Cursor} (h : c.Positioned) (operations : List Operation) :
    (c.after operations).Positioned := by
  induction operations generalizing c with
  | nil => exact h
  | cons operation operations ih => exact ih (h.perform operation)

/-! ## Built cursors -/

/-- The cursors that are built from a source, over tokens whose literals are texts or missing, and
the forks of these in whatever state they are. -/
inductive Built : Cursor → Prop
  | build {settings : Settings} {source representation legacyPadding : Value} {c : Cursor}
      {event : Event} {tokens : List Token}
      (h : build settings source representation legacyPadding = .ok (c, event))
      (htokens : c.tokens = (tokens.map Record.ofToken).toArray) : Built c
  | fork {c : Cursor} (h : Built c) (operations : List Operation) :
      Built (c.after operations).fork

theorem exists_start_of_build {settings : Settings}
    {source representation legacyPadding : Value} {c : Cursor} {event : Event}
    (h : build settings source representation legacyPadding = .ok (c, event)) :
    ∃ tokens r, c = start tokens r := by
  unfold Cursor.build at h
  cases hr : Representation.coerce (orElse representation settings.representation) with
  | error fault =>
      rw [hr] at h
      cases h
  | ok r =>
      rw [hr] at h
      simp only [bind, Except.bind] at h
      split at h
      · cases h
        exact ⟨_, _, rfl⟩
      · split at h
        · split at h
          · cases h
          · cases h
            exact ⟨_, _, rfl⟩
        · cases h

theorem Built.positioned {c : Cursor} (h : Built c) : c.Positioned := by
  cases h with
  | build h =>
      obtain ⟨tokens, r, rfl⟩ := exists_start_of_build h
      exact positioned_start tokens r
  | fork h operations => exact Or.inl ⟨rfl, rfl⟩

/-- A cursor counts its tokens when it is built, and its forks take the count over. -/
theorem Built.exists_over {c : Cursor} (h : Built c) : ∃ tokens, c.Over tokens := by
  induction h with
  | @build _ _ _ _ _ _ tokens h htokens =>
      obtain ⟨records, r, rfl⟩ := exists_start_of_build h
      refine ⟨tokens, htokens, ?_⟩
      have hsize := congrArg Array.size htokens
      simpa [start] using hsize
  | fork h operations ih =>
      obtain ⟨tokens, hover⟩ := ih
      obtain ⟨htokens, hsize⟩ := hover.after operations
      exact ⟨tokens, htokens, hsize⟩

/-! ## Reads -/

/-- What a cursor answers to a read is a token at a position that exists, or says that there is
none; and no operation reads at any other position. -/
structure ReadsInRange (c : Cursor) : Prop where
  current : if c.size = 0 then (c.perform .current).1 = .ok .null else
    ∃ h : c.current < c.tokens.size, (c.perform .current).1 = c.encode c.tokens[c.current]
  next : ∀ offset v moved, c.perform (.next offset) = (.ok v, moved) →
    ∃ h : moved.current < c.tokens.size, c.encode c.tokens[moved.current] = .ok v
  peek : ∀ offset v, (c.perform (.peek offset)).1 = .ok v →
    if h : c.next + offset.toNat < c.tokens.size then
      c.encode c.tokens[c.next + offset.toNat] = .ok v
    else v = .null
  never : ∀ operation, (c.perform operation).1 ≠ .error (.defective .outOfRange)

omit [Budget] in
theorem tokenAt_of_lt {c : Cursor} {i : Nat} (h : i < c.tokens.size) :
    c.tokenAt i = c.encode c.tokens[i] := by
  rw [tokenAt, Array.getElem?_eq_getElem h]

/-- A cursor over tokens fails only because of an offset, and then it stays where it was. -/
theorem Over.fault {c : Cursor} {tokens : List Token} (h : c.Over tokens)
    (hpositioned : c.Positioned) {operation : Operation} {fault : Fault}
    (hfault : (c.perform operation).1 = .error fault) :
    OfOffset fault ∧ (c.perform operation).2 = c := by
  have hread {i : Nat} (hi : i < c.size) : ∃ v, c.tokenAt i = .ok v := by
    rw [h.size_eq] at hi
    exact ⟨_, h.tokenAt hi⟩
  cases operation with
  | next offset =>
      rcases advance_cases c offset with ⟨fault', hadvance, hoffset⟩ | ⟨k, hk, -, hadvance⟩
      · rw [Cursor.perform, hadvance] at hfault ⊢
        cases hfault
        exact ⟨hoffset, rfl⟩
      · obtain ⟨v, hv⟩ := hread hk
        rw [Cursor.perform, hadvance] at hfault
        cases hfault.symm.trans hv
  | skip offset =>
      rcases advance_cases c offset with ⟨fault', hadvance, hoffset⟩ | ⟨k, -, -, hadvance⟩
      · rw [Cursor.perform, hadvance] at hfault ⊢
        cases hfault
        exact ⟨hoffset, rfl⟩
      · rw [Cursor.perform, hadvance] at hfault
        cases hfault
  | peek offset =>
      rcases lookahead_cases c offset with ⟨fault', hlook, hoffset⟩ | ⟨-, hlook⟩ | ⟨hk, hlook⟩
      · cases hfault.symm.trans hlook
        exact ⟨hoffset, rfl⟩
      · cases hfault.symm.trans hlook
      · obtain ⟨v, hv⟩ := hread hk
        cases hfault.symm.trans (hlook.trans hv)
  | current =>
      rw [Cursor.perform, currentToken] at hfault
      split_ifs at hfault with hsize
      obtain ⟨v, hv⟩ := hread (hpositioned.current_lt hsize)
      cases hfault.symm.trans hv
  | list =>
      rw [Cursor.perform, toList_of_tokens h.tokens_eq] at hfault
      cases hfault
  | rewind => cases hfault
  | tokens => cases hfault
  | size => cases hfault
  | describe => cases hfault

theorem Over.readsInRange {c : Cursor} {tokens : List Token} (h : c.Over tokens)
    (hpositioned : c.Positioned) : c.ReadsInRange where
  current := by
    have hsize : c.size = c.tokens.size := by simp [h.size_eq, h.tokens_eq]
    split_ifs with hempty
    · rw [Cursor.perform, currentToken, if_pos hempty]
    · have hlt : c.current < c.tokens.size := hsize ▸ hpositioned.current_lt hempty
      refine ⟨hlt, ?_⟩
      rw [Cursor.perform, currentToken, if_neg hempty, tokenAt_of_lt hlt]
  next := by
    have hsize : c.size = c.tokens.size := by simp [h.size_eq, h.tokens_eq]
    intro offset v moved hperform
    rcases advance_cases c offset with ⟨fault, hadvance, -⟩ | ⟨k, hk, -, hadvance⟩
    · rw [Cursor.perform, hadvance] at hperform
      cases hperform
    · rw [Cursor.perform, hadvance] at hperform
      obtain ⟨hread, rfl⟩ := Prod.mk.inj hperform
      have hlt : c.next + k < c.tokens.size := hsize ▸ hk
      exact ⟨hlt, (tokenAt_of_lt hlt).symm.trans hread⟩
  peek := by
    have hsize : c.size = c.tokens.size := by simp [h.size_eq, h.tokens_eq]
    intro offset v hperform
    rcases lookahead_cases c offset with ⟨fault, hlook, -⟩ | ⟨hend, hlook⟩ | ⟨hlt, hlook⟩
    · cases hperform.symm.trans hlook
    · rw [hsize] at hend
      cases hperform.symm.trans hlook
      rw [dif_neg (Nat.not_lt.2 hend)]
    · rw [hsize] at hlt
      rw [dif_pos hlt, ← tokenAt_of_lt hlt, ← hlook]
      exact hperform
  never := by
    intro operation hfault
    exact (h.fault hpositioned hfault).1.ne_outOfRange rfl

/-- In every state that a built cursor comes to, it stands before its first token or behind one of
its tokens, its tokens and representation are those it was built with, and it still knows their
number; it reads only tokens that exist; and an operation that fails or only looks leaves it as it
is. -/
theorem built_after {c : Cursor} (h : Built c) (operations : List Operation) :
    (c.after operations).Positioned ∧
    (c.after operations).size = c.tokens.size ∧
    (c.after operations).tokens = c.tokens ∧
    (c.after operations).representation = c.representation ∧
    (c.after operations).ReadsInRange ∧
    ∀ operation,
      ((∃ fault, ((c.after operations).perform operation).1 = .error fault) ∨
        operation.moves = false) →
      ((c.after operations).perform operation).2 = c.after operations := by
  have hpositioned := h.positioned.after operations
  obtain ⟨tokens, hover⟩ := h.exists_over
  obtain ⟨htokens, -, hrepresentation⟩ := sameContents_after c operations
  have hafter := hover.after operations
  have hsize : (c.after operations).size = c.tokens.size := by
    simp [hafter.size_eq, hover.tokens_eq]
  refine ⟨hpositioned, hsize, htokens, hrepresentation, hafter.readsInRange hpositioned, ?_⟩
  rintro operation (⟨fault, hfault⟩ | hmoves)
  · exact (hafter.fault hpositioned hfault).2
  · exact perform_of_not_moves _ hmoves

end

/-- Some of the operations fail, the last token is read, and another read changes nothing. -/
theorem built_after_failures :
    Built (ofTokens [⟨.lparen, some "("⟩, ⟨.dot, none⟩] .jsonText) ∧
      ((ofTokens [⟨.lparen, some "("⟩, ⟨.dot, none⟩] .jsonText).after
          [.next 2, .peek 0, .skip 0, .next (-1), .next 0, .current]).Positioned ∧
      (((ofTokens [⟨.lparen, some "("⟩, ⟨.dot, none⟩] .jsonText).after
          [.next 2, .peek 0, .skip 0, .next (-1), .next 0, .current]).perform (.next 0)).2 =
        ⟨#[⟨.lparen, .text "("⟩, ⟨.dot, .null⟩], 2, 1, 2, .jsonText⟩ := by
  have hbuild : build .default (.tuple [.token ⟨.lparen, some "("⟩, .token ⟨.dot, none⟩])
      (.representation .jsonText) .null =
        .ok (ofTokens [⟨.lparen, some "("⟩, ⟨.dot, none⟩] .jsonText,
          .converted 2 (some .record)) := rfl
  have hbuilt := Built.build hbuild rfl
  obtain ⟨hpositioned, -, -, -, -, hkept⟩ :=
    built_after hbuilt [.next 2, .peek 0, .skip 0, .next (-1), .next 0, .current]
  exact ⟨hbuilt, hpositioned, hkept (.next 0) (Or.inl ⟨_, rfl⟩)⟩

end SchemeLexer.Cursor
