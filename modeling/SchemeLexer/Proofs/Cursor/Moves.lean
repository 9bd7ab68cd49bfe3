import Mathlib.Tactic.SplitIfs
import SchemeLexer.Cursor
/-!
# What operations do to a cursor

An operation leaves the cursor as it is, puts it before its first token, or puts it behind a token
that exists. Which of these happens, and what is answered, is said here once; what runs of
operations keep follows from it without another look at the operations. A cursor whose tokens can
all be handed out fails only because of the offset that it is given.
-/

namespace SchemeLexer

/-! ## Faults that show numbers -/

theorem describeInt_of_le {n : Int} (h : (Nat.toDigits 10 n.natAbs).length ≤ digitLimit) :
    ∃ text, describeInt n = .ok text := by
  simp [describeInt, Nat.not_lt.2 h]

theorem describeInt_of_lt {n : Int} (h : digitLimit < (Nat.toDigits 10 n.natAbs).length) :
    describeInt n = .error .hugeInteger := by
  simp [describeInt, h]

theorem digits_le_of_le {m n : Nat} (h : m ≤ n)
    (hn : (Nat.toDigits 10 n).length ≤ digitLimit) :
    (Nat.toDigits 10 m).length ≤ digitLimit := by
  have hlimit : 0 < digitLimit := by decide
  rw [Nat.length_toDigits_le_iff (by decide) hlimit] at hn ⊢
  exact Nat.lt_of_le_of_lt h hn

/-- A power of ten has one digit more than its exponent. -/
theorem not_digits_pow_le {k : Nat} (hk : 0 < k) :
    ¬(Nat.toDigits 10 (Nat.pow 10 k)).length ≤ k := by
  rw [Nat.length_toDigits_le_iff (by decide) hk]
  exact Nat.lt_irrefl _

namespace Cursor

/-- The fault of a read past the last token. It shows the position, so that a position of too many
digits is reported in its place. -/
def pastEnd (position size : Nat) : Fault :=
  if (Nat.toDigits 10 position).length ≤ digitLimit then .endOfStream (.int position) (.int size)
  else .defective .hugeInteger

/-- The fault of an offset below zero. It shows the offset, so that an offset of too many digits is
reported in its place; either way it is a fault of the number that was given. -/
def backward (offset : Int) : Fault :=
  if (Nat.toDigits 10 offset.natAbs).length ≤ digitLimit then .negativeOffset offset
  else .defective .hugeInteger

section

variable [Budget]

theorem settle_endOfStream {position size : Nat} (h : size ≤ position) :
    (Fault.endOfStream (.int position) (.int size)).settle = pastEnd position size := by
  have hdisplay (n : Nat) : (Value.int n).display = (describeInt n).map Text.plain :=
    Value.display_int n
  by_cases hdigits : (Nat.toDigits 10 position).length ≤ digitLimit
  · obtain ⟨shown, hposition⟩ := describeInt_of_le (n := position) hdigits
    obtain ⟨shown', hsize⟩ := describeInt_of_le (n := size) (digits_le_of_le h hdigits)
    simp only [Fault.settle, Fault.message, hdisplay, hposition, hsize, bind, Except.bind, pastEnd,
      hdigits, if_true]
    rfl
  · have hposition := describeInt_of_lt (n := position) (Nat.lt_of_not_le hdigits)
    simp only [Fault.settle, Fault.message, hdisplay, hposition, bind, Except.bind, pastEnd,
      hdigits, if_false]
    rfl

theorem settle_negativeOffset (offset : Int) :
    (Fault.negativeOffset offset).settle = backward offset := by
  by_cases hdigits : (Nat.toDigits 10 offset.natAbs).length ≤ digitLimit
  · obtain ⟨shown, hoffset⟩ := describeInt_of_le hdigits
    simp only [Fault.settle, Fault.message, hoffset, bind, Except.bind, backward, if_pos hdigits]
    rfl
  · have hoffset := describeInt_of_lt (Nat.lt_of_not_le hdigits)
    simp only [Fault.settle, Fault.message, hoffset, bind, Except.bind, backward, if_neg hdigits]

end

/-! ## Positions -/

@[simp] theorem ofTokens_next (tokens : List Token) (r : Representation) :
    (ofTokens tokens r).next = 0 := rfl

/-- The cursor that has just read the token at a position. -/
def movedTo (c : Cursor) (position : Nat) : Cursor :=
  { c with current := position, next := position + 1 }

@[simp] theorem movedTo_tokens (c : Cursor) (position : Nat) :
    (c.movedTo position).tokens = c.tokens := rfl

@[simp] theorem movedTo_size (c : Cursor) (position : Nat) :
    (c.movedTo position).size = c.size := rfl

@[simp] theorem movedTo_current (c : Cursor) (position : Nat) :
    (c.movedTo position).current = position := rfl

@[simp] theorem movedTo_next (c : Cursor) (position : Nat) :
    (c.movedTo position).next = position + 1 := rfl

@[simp] theorem movedTo_representation (c : Cursor) (position : Nat) :
    (c.movedTo position).representation = c.representation := rfl

@[simp] theorem tokenAt_movedTo (c : Cursor) (position i : Nat) :
    (c.movedTo position).tokenAt i = c.tokenAt i := rfl

variable [Budget]

/-! ## Advancing -/

theorem advance_of_neg {c : Cursor} {offset : Int} (h : offset < 0) :
    c.advance offset = .error (backward offset) := by
  rw [advance, if_pos h, Fault.raise, settle_negativeOffset]

theorem advance_of_lt {c : Cursor} {offset : Nat} (h : c.next + offset < c.size) :
    c.advance offset = .ok (c.movedTo (c.next + offset)) := by
  have hsign : ¬(offset : Int) < 0 := by omega
  simp [advance, hsign, Nat.not_le.2 h, movedTo]

theorem advance_of_le {c : Cursor} {offset : Nat} (h : c.size ≤ c.next + offset) :
    c.advance offset = .error (pastEnd (c.next + offset) c.size) := by
  have hsign : ¬(offset : Int) < 0 := by omega
  simp [advance, hsign, h, Fault.raise, ← settle_endOfStream h]

def OfOffset (fault : Fault) : Prop :=
  (∃ offset, fault = backward offset) ∨ ∃ position size, fault = pastEnd position size

omit [Budget] in
theorem OfOffset.ne_outOfRange {fault : Fault} (h : OfOffset fault) :
    fault ≠ .defective .outOfRange := by
  rcases h with ⟨offset, rfl⟩ | ⟨position, size, rfl⟩
  · rw [backward]
    split_ifs <;> exact nofun
  · rw [pastEnd]
    split_ifs <;> exact nofun

/-- Everything that advancing can come to. -/
theorem advance_cases (c : Cursor) (offset : Int) :
    (∃ fault, c.advance offset = .error fault ∧ OfOffset fault) ∨
    ∃ k : Nat, c.next + k < c.size ∧ offset = k ∧
      c.advance offset = .ok (c.movedTo (c.next + k)) := by
  by_cases hsign : offset < 0
  · exact Or.inl ⟨_, advance_of_neg hsign, Or.inl ⟨_, rfl⟩⟩
  · obtain ⟨k, rfl⟩ := Int.eq_ofNat_of_zero_le (Int.not_lt.1 hsign)
    by_cases hposition : c.next + k < c.size
    · exact Or.inr ⟨k, hposition, rfl, advance_of_lt hposition⟩
    · exact Or.inl ⟨_, advance_of_le (Nat.not_lt.1 hposition), Or.inr ⟨_, _, rfl⟩⟩

/-- Everything that looking ahead can come to. -/
theorem lookahead_cases (c : Cursor) (offset : Int) :
    (∃ fault, c.lookahead offset = .error fault ∧ OfOffset fault) ∨
    (c.size ≤ c.next + offset.toNat ∧ c.lookahead offset = .ok .null) ∨
    (c.next + offset.toNat < c.size ∧
      c.lookahead offset = c.tokenAt (c.next + offset.toNat)) := by
  unfold lookahead
  dsimp only
  split_ifs with hsign hend hposition
  · rw [Fault.raise, settle_negativeOffset]
    exact Or.inl ⟨_, rfl, Or.inl ⟨_, rfl⟩⟩
  · rw [Fault.raise, settle_endOfStream hend]
    exact Or.inl ⟨_, rfl, Or.inr ⟨_, _, rfl⟩⟩
  · exact Or.inr (Or.inl ⟨hposition, rfl⟩)
  · exact Or.inr (Or.inr ⟨Nat.not_le.1 hposition, rfl⟩)

/-! ## Operations -/

/-- Whether an operation may move the cursor. The others only look. -/
def Operation.moves : Operation → Bool
  | .next _ => true
  | .skip _ => true
  | .rewind => true
  | _ => false

theorem perform_of_not_moves (c : Cursor) {operation : Operation}
    (h : operation.moves = false) : (c.perform operation).2 = c := by
  cases operation with
  | next offset => cases h
  | skip offset => cases h
  | rewind => cases h
  | _ => rfl

/-- Everything that an operation can do to a cursor. -/
theorem perform_cases (c : Cursor) (operation : Operation) :
    (c.perform operation).2 = c ∨ (c.perform operation).2 = c.rewind ∨
      ∃ position < c.size, (c.perform operation).2 = c.movedTo position := by
  cases operation with
  | next offset =>
      rcases advance_cases c offset with ⟨fault, h, -⟩ | ⟨k, hk, -, h⟩
      · exact Or.inl (by rw [perform, h])
      · exact Or.inr (Or.inr ⟨c.next + k, hk, by rw [perform, h]⟩)
  | skip offset =>
      rcases advance_cases c offset with ⟨fault, h, -⟩ | ⟨k, hk, -, h⟩
      · exact Or.inl (by rw [perform, h])
      · exact Or.inr (Or.inr ⟨c.next + k, hk, by rw [perform, h]⟩)
  | rewind => exact Or.inr (Or.inl rfl)
  | _ => exact Or.inl rfl

/-! ## Runs -/

def after (c : Cursor) (operations : List Operation) : Cursor :=
  operations.foldl (fun c operation => (c.perform operation).2) c

@[simp] theorem after_nil (c : Cursor) : c.after [] = c := rfl

@[simp] theorem after_cons (c : Cursor) (operation : Operation) (operations : List Operation) :
    c.after (operation :: operations) = (c.perform operation).2.after operations := rfl

def SameContents (c d : Cursor) : Prop :=
  d.tokens = c.tokens ∧ d.size = c.size ∧ d.representation = c.representation

omit [Budget] in
theorem SameContents.trans {c d e : Cursor} (h : c.SameContents d) (h' : d.SameContents e) :
    c.SameContents e :=
  ⟨h'.1.trans h.1, h'.2.1.trans h.2.1, h'.2.2.trans h.2.2⟩

theorem sameContents_perform (c : Cursor) (operation : Operation) :
    c.SameContents (c.perform operation).2 := by
  rcases perform_cases c operation with hsame | hrewound | ⟨position, -, hmoved⟩
  · rw [hsame]
    exact ⟨rfl, rfl, rfl⟩
  · rw [hrewound]
    exact ⟨rfl, rfl, rfl⟩
  · rw [hmoved]
    exact ⟨rfl, rfl, rfl⟩

theorem sameContents_after (c : Cursor) (operations : List Operation) :
    c.SameContents (c.after operations) := by
  induction operations generalizing c with
  | nil => exact ⟨rfl, rfl, rfl⟩
  | cons operation operations ih =>
      exact (sameContents_perform c operation).trans (ih (c.perform operation).2)

/-! ## Cursors over tokens -/

/-- A cursor reads these tokens, whose literals are texts or missing, and knows their number. -/
structure Over (c : Cursor) (tokens : List Token) : Prop where
  tokens_eq : c.tokens = (tokens.map Record.ofToken).toArray
  size_eq : c.size = tokens.length

section

omit [Budget]

variable {c d : Cursor} {tokens : List Token}

theorem ofTokens_over (tokens : List Token) (r : Representation) :
    (ofTokens tokens r).Over tokens :=
  ⟨rfl, by simp [ofTokens, start]⟩

theorem Over.of_sameContents (h : c.Over tokens) (hsame : c.SameContents d) : d.Over tokens :=
  ⟨hsame.1.trans h.tokens_eq, hsame.2.1.trans h.size_eq⟩

theorem encode_ofToken (c : Cursor) (t : Token) :
    c.encode (.ofToken t) = .ok (c.representation.encode t) := by
  rw [encode, Record.value_ofToken, Value.encoded_token]
  rfl

theorem Over.tokenAt (h : c.Over tokens) {i : Nat} (hi : i < tokens.length) :
    c.tokenAt i = .ok (c.representation.encode tokens[i]) := by
  simp [Cursor.tokenAt, h.tokens_eq, hi, encode_ofToken]

theorem toList_of_tokens (h : c.tokens = (tokens.map Record.ofToken).toArray) :
    c.toList = .ok (tokens.map c.representation.encode) := by
  rw [toList, h]
  clear h
  induction tokens with
  | nil => rfl
  | cons t tokens ih =>
      rw [List.map_cons, List.mapM_cons, encode_ofToken, ih]
      rfl

end

theorem Over.perform {c : Cursor} {tokens : List Token} (h : c.Over tokens)
    (operation : Operation) : (c.perform operation).2.Over tokens :=
  h.of_sameContents (sameContents_perform c operation)

theorem Over.after {c : Cursor} {tokens : List Token} (h : c.Over tokens)
    (operations : List Operation) : (c.after operations).Over tokens :=
  h.of_sameContents (sameContents_after c operations)

end Cursor

end SchemeLexer
