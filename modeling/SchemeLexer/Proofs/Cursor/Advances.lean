import SchemeLexer.Proofs.Cursor.Invariant
/-!
# Runs of advances

A run of successful advances is arithmetic on positions: each consumes the tokens it passes over
and one more, so that the position it reaches is one less than what has been consumed since the
start. The run lemmas speak of any cursor, by its next position; the main statement is about a
cursor that has read nothing.
-/

namespace SchemeLexer.Cursor

/-- An advance by an offset that is not negative. -/
inductive Advance where
  | next (offset : Nat)
  | skip (offset : Nat)
  deriving DecidableEq, Repr

namespace Advance

def offset : Advance → Nat
  | .next k => k
  | .skip k => k

def operation : Advance → Operation
  | .next k => .next k
  | .skip k => .skip k

def answer (r : Representation) (t : Token) : Advance → Value
  | .next _ => r.encode t
  | .skip _ => .null

end Advance

def consumed : List Advance → Nat
  | [] => 0
  | a :: rest => a.offset + 1 + consumed rest

/-- The position that the last of several advances reaches from the start. -/
def reach (earlier : List Advance) (a : Advance) : Nat :=
  consumed (earlier ++ [a]) - 1

section

variable [Budget]

def afterAll (c : Cursor) (advances : List Advance) : Cursor :=
  c.after (advances.map Advance.operation)

def Succeed : Cursor → List Advance → Prop
  | _, [] => True
  | c, a :: rest =>
      (∃ v, (c.perform a.operation).1 = .ok v) ∧ Succeed (c.perform a.operation).2 rest

def answers : Cursor → List Operation → List (Except Fault Value)
  | _, [] => []
  | c, operation :: rest => (c.perform operation).1 :: answers (c.perform operation).2 rest

end

theorem consumed_append (advances others : List Advance) :
    consumed (advances ++ others) = consumed advances + consumed others := by
  induction advances with
  | nil => simp [consumed]
  | cons a rest ih =>
      rw [List.cons_append, consumed, consumed, ih]
      omega

theorem consumed_replicate (n : Nat) : consumed (List.replicate n (.next 0)) = n := by
  induction n with
  | zero => rfl
  | succ n ih =>
      rw [List.replicate_succ, consumed, ih, Advance.offset]
      omega

theorem reach_eq (earlier : List Advance) (a : Advance) :
    reach earlier a = consumed earlier + a.offset := by
  rw [reach, consumed_append, consumed, consumed]
  omega

section

variable [Budget]

/-! ## One advance -/

/-- Both kinds of advances move alike and differ only in what they answer. -/
theorem perform_operation (c : Cursor) (a : Advance) :
    c.perform a.operation =
      match c.advance a.offset with
      | .ok moved =>
          (match a with
            | .next _ => moved.tokenAt moved.current
            | .skip _ => .ok .null, moved)
      | .error fault => (.error fault, c) := by
  cases a <;> rfl

theorem perform_advance_of_lt {c : Cursor} {tokens : List Token} (hover : c.Over tokens)
    {a : Advance} (h : c.next + a.offset < tokens.length) :
    c.perform a.operation =
      (.ok (a.answer c.representation tokens[c.next + a.offset]),
        c.movedTo (c.next + a.offset)) := by
  rw [perform_operation, advance_of_lt (by rwa [hover.size_eq])]
  cases a with
  | next k => simp only [tokenAt_movedTo, movedTo_current, hover.tokenAt h, Advance.answer]
  | skip k => rfl

theorem perform_advance_of_le {c : Cursor} {a : Advance} (h : c.size ≤ c.next + a.offset) :
    c.perform a.operation = (.error (pastEnd (c.next + a.offset) c.size), c) := by
  rw [perform_operation, advance_of_le h]

theorem perform_advance_ok_iff {c : Cursor} {tokens : List Token} (hover : c.Over tokens)
    (a : Advance) :
    (∃ v, (c.perform a.operation).1 = .ok v) ↔ c.next + a.offset < tokens.length := by
  by_cases h : c.next + a.offset < tokens.length
  · rw [perform_advance_of_lt hover h]
    exact iff_of_true ⟨_, rfl⟩ h
  · rw [perform_advance_of_le (by rw [hover.size_eq]; exact Nat.not_lt.1 h)]
    refine iff_of_false ?_ h
    rintro ⟨v, hv⟩
    cases hv

/-! ## Runs of advances -/

theorem afterAll_cons (c : Cursor) (a : Advance) (rest : List Advance) :
    c.afterAll (a :: rest) = (c.perform a.operation).2.afterAll rest := rfl

theorem succeed_append (c : Cursor) (advances others : List Advance) :
    Succeed c (advances ++ others) ↔
      Succeed c advances ∧ Succeed (c.afterAll advances) others := by
  induction advances generalizing c with
  | nil => simp [Succeed, afterAll]
  | cons a rest ih =>
      rw [List.cons_append, Succeed, Succeed, ih, afterAll_cons, and_assoc]

variable {c : Cursor} {tokens : List Token}

/-- Each successful advance adds what it consumes to the next position. -/
theorem next_afterAll (hover : c.Over tokens) {advances : List Advance} (h : Succeed c advances) :
    (c.afterAll advances).next = c.next + consumed advances := by
  induction advances generalizing c with
  | nil => rfl
  | cons a rest ih =>
      obtain ⟨hok, hrest⟩ := h
      have hlt := (perform_advance_ok_iff hover a).1 hok
      have hmoved : (c.perform a.operation).2.next = c.next + a.offset + 1 := by
        rw [perform_advance_of_lt hover hlt, movedTo_next]
      rw [afterAll_cons, ih (hover.perform a.operation) hrest, hmoved, consumed]
      omega

/-- Advances succeed as long as they consume no more than there is. -/
theorem succeed_of_le (hover : c.Over tokens) {advances : List Advance}
    (h : c.next + consumed advances ≤ tokens.length) : Succeed c advances := by
  induction advances generalizing c with
  | nil => trivial
  | cons a rest ih =>
      rw [consumed] at h
      have hlt : c.next + a.offset < tokens.length := by omega
      refine ⟨(perform_advance_ok_iff hover a).2 hlt, ih (hover.perform a.operation) ?_⟩
      rw [perform_advance_of_lt hover hlt, movedTo_next]
      omega

theorem next_afterAll_add_offset (hover : c.Over tokens) {earlier : List Advance}
    (h : Succeed c earlier) (a : Advance) :
    (c.afterAll earlier).next + a.offset = c.next + reach earlier a := by
  rw [next_afterAll hover h, reach_eq, Nat.add_assoc]

theorem succeed_snoc_iff (hover : c.Over tokens) {earlier : List Advance} (h : Succeed c earlier)
    (a : Advance) :
    Succeed c (earlier ++ [a]) ↔ c.next + reach earlier a < tokens.length := by
  have hafter : (c.afterAll earlier).Over tokens := hover.after _
  have hlast : Succeed (c.afterAll earlier) [a] ↔ c.next + reach earlier a < tokens.length := by
    rw [Succeed, Succeed, and_true, perform_advance_ok_iff hafter,
      next_afterAll_add_offset hover h]
  rw [succeed_append, hlast]
  exact and_iff_right h

/-- What an advance does after others that have all succeeded. -/
theorem perform_afterAll (hover : c.Over tokens) {earlier : List Advance} (h : Succeed c earlier)
    (a : Advance) :
    (∀ hlt : c.next + reach earlier a < tokens.length,
      (c.afterAll earlier).perform a.operation =
        (.ok (a.answer c.representation tokens[c.next + reach earlier a]),
          c.movedTo (c.next + reach earlier a))) ∧
    (tokens.length ≤ c.next + reach earlier a →
      (c.afterAll earlier).perform a.operation =
        (.error (pastEnd (c.next + reach earlier a) tokens.length), c.afterAll earlier)) := by
  have hposition := next_afterAll_add_offset hover h a
  obtain ⟨htokens, hsize, hrepresentation⟩ :=
    sameContents_after c (earlier.map Advance.operation)
  rw [← afterAll] at htokens hsize hrepresentation
  have hafter : (c.afterAll earlier).Over tokens := hover.after _
  constructor
  · intro hlt
    have hlt' : (c.afterAll earlier).next + a.offset < tokens.length := by rwa [hposition]
    rw [perform_advance_of_lt hafter hlt']
    simp only [hposition, htokens, hsize, hrepresentation, movedTo]
  · intro hle
    have hle' : (c.afterAll earlier).size ≤ (c.afterAll earlier).next + a.offset := by
      rwa [hposition, hafter.size_eq]
    rw [perform_advance_of_le hle', hposition, hafter.size_eq]

/-! ## Two advances as one -/

/-- Where a cursor has moved by a skip, a read goes to where a longer one goes from before it. -/
theorem advance_movedTo (c : Cursor) (a b : Nat) :
    (c.movedTo (c.next + a)).advance b = c.advance (a + b + 1 : Nat) := by
  have hposition : (c.movedTo (c.next + a)).next + b = c.next + (a + b + 1) := by
    rw [movedTo_next]
    omega
  by_cases h : c.next + (a + b + 1) < c.size
  · rw [advance_of_lt h, advance_of_lt (by rwa [hposition]), hposition]
    rfl
  · have hend : c.size ≤ c.next + (a + b + 1) := Nat.not_lt.1 h
    rw [advance_of_le hend, advance_of_le (by rwa [hposition]), hposition]
    rfl

/-- Skipping and then reading answers what a longer read does. They also leave the same cursor,
unless the read fails: then the skipped tokens stay skipped. -/
theorem perform_skip_next {c moved : Cursor} {a b : Nat} {v : Value}
    (h : c.perform (.skip a) = (.ok v, moved)) :
    (moved.perform (.next b)).1 = (c.perform (.next (a + b + 1 : Nat))).1 ∧
      ∀ w, (moved.perform (.next b)).1 = .ok w →
        moved.perform (.next b) = c.perform (.next (a + b + 1 : Nat)) := by
  have hmoved : moved = c.movedTo (c.next + a) := by
    rcases advance_cases c a with ⟨fault, hadvance, -⟩ | ⟨k, -, hk, hadvance⟩
    · rw [perform, hadvance] at h
      cases h
    · cases hk
      rw [perform, hadvance] at h
      exact (Prod.mk.inj h).2.symm
  subst hmoved
  rw [perform, perform, advance_movedTo]
  cases c.advance (a + b + 1 : Nat) with
  | ok reached => exact ⟨rfl, fun _ _ => rfl⟩
  | error fault =>
      refine ⟨rfl, ?_⟩
      rintro w ⟨⟩

/-! ## Reading everything -/

/-- Reading as often as there are tokens left answers these tokens. -/
theorem answers_replicate_next (hover : c.Over tokens) {n : Nat} (h : c.next + n = tokens.length) :
    answers c (List.replicate n (.next 0)) =
      (tokens.drop c.next).map fun t => .ok (c.representation.encode t) := by
  induction n generalizing c with
  | zero =>
      have hdrop : tokens.drop c.next = [] := by
        rw [List.drop_eq_nil_iff]
        omega
      rw [hdrop]
      rfl
  | succ n ih =>
      have hlt : c.next < tokens.length := by omega
      have hperform : c.perform (.next 0) =
          (.ok (c.representation.encode tokens[c.next]), c.movedTo c.next) :=
        perform_advance_of_lt hover (a := .next 0) hlt
      have hmoved : (c.movedTo c.next).Over tokens := hover.of_sameContents ⟨rfl, rfl, rfl⟩
      have hrest := ih hmoved (by rw [movedTo_next]; omega)
      rw [List.replicate_succ, answers, hperform, hrest, List.drop_eq_getElem_cons hlt]
      rfl

theorem answers_append (c : Cursor) (operations others : List Operation) :
    answers c (operations ++ others) =
      answers c operations ++ answers (c.after operations) others := by
  induction operations generalizing c with
  | nil => rfl
  | cons operation rest ih =>
      rw [List.cons_append, answers, answers, ih, List.cons_append, after_cons]

omit [Budget] in
theorem reach_replicate (n : Nat) : reach (List.replicate n (.next 0)) (.next 0) = n := by
  rw [reach_eq, consumed_replicate, Advance.offset, Nat.add_zero]

/-- Reading once more than there are tokens answers all of them, and then fails. -/
theorem answers_ofTokens (tokens : List Token) (r : Representation) :
    answers (ofTokens tokens r) (List.replicate tokens.length (.next 0) ++ [.next 0]) =
      (tokens.map r.encode).map .ok ++ [.error (pastEnd tokens.length tokens.length)] := by
  have hover := ofTokens_over tokens r
  have htokens : answers (ofTokens tokens r) (List.replicate tokens.length (.next 0)) =
      (tokens.map r.encode).map .ok := by
    rw [answers_replicate_next hover (Nat.zero_add _), List.map_map]
    rfl
  have hall : Succeed (ofTokens tokens r) (List.replicate tokens.length (.next 0)) := by
    apply succeed_of_le hover
    rw [consumed_replicate]
    exact Nat.le_of_eq (Nat.zero_add _)
  have hend := (perform_afterAll hover hall (.next 0)).2
  rw [reach_replicate, ofTokens_next, Nat.zero_add, afterAll, List.map_replicate] at hend
  have hlast := congrArg Prod.fst (hend (Nat.le_refl _))
  rw [answers_append, htokens]
  exact congrArg (_ ++ [·]) hlast

/-- From the start, a run of advances is arithmetic on positions: an advance after others that have
succeeded does so too if the position it reaches exists, and it reads the token there. Skipping and
reading are one longer read, and reading again and again gives the tokens in order. -/
theorem advances_from_start (tokens : List Token) (r : Representation) :
    (∀ (earlier : List Advance) (a : Advance), Succeed (ofTokens tokens r) earlier →
      (Succeed (ofTokens tokens r) (earlier ++ [a]) ↔ reach earlier a < tokens.length) ∧
      (∀ h : reach earlier a < tokens.length,
        ((ofTokens tokens r).afterAll earlier).perform a.operation =
          (.ok (a.answer r tokens[reach earlier a]),
            { ofTokens tokens r with current := reach earlier a, next := reach earlier a + 1 })) ∧
      (tokens.length ≤ reach earlier a →
        ((ofTokens tokens r).afterAll earlier).perform a.operation =
          (.error (pastEnd (reach earlier a) tokens.length),
            (ofTokens tokens r).afterAll earlier))) ∧
    (∀ (c moved : Cursor) (a b : Nat) (v : Value), c.perform (.skip a) = (.ok v, moved) →
      (moved.perform (.next b)).1 = (c.perform (.next (a + b + 1 : Nat))).1 ∧
      ∀ w, (moved.perform (.next b)).1 = .ok w →
        moved.perform (.next b) = c.perform (.next (a + b + 1 : Nat))) ∧
    ∃ values, (ofTokens tokens r).toList = .ok values ∧
      answers (ofTokens tokens r) (List.replicate tokens.length (.next 0) ++ [.next 0]) =
        values.map .ok ++ [.error (pastEnd tokens.length tokens.length)] := by
  have hover := ofTokens_over tokens r
  refine ⟨?_, fun c moved a b v h => perform_skip_next h, tokens.map r.encode,
    toList_of_tokens hover.tokens_eq, answers_ofTokens tokens r⟩
  intro earlier a hearlier
  have hsucceed := succeed_snoc_iff hover hearlier a
  obtain ⟨hlt, hle⟩ := perform_afterAll hover hearlier a
  simp only [ofTokens_next, Nat.zero_add] at hsucceed hlt hle
  exact ⟨hsucceed, hlt, hle⟩

end

/-- A skip past two tokens, a read of the last one, and a read too many. -/
theorem advances_from_start_three :
    Succeed (ofTokens [⟨.lparen, some "("⟩, ⟨.dot, none⟩, ⟨.number, some "7"⟩] .mapping)
        [.skip 1, .next 0] ∧
      ((ofTokens [⟨.lparen, some "("⟩, ⟨.dot, none⟩, ⟨.number, some "7"⟩] .mapping).afterAll
          [.skip 1, .next 0]).perform (.next 0) =
        (.error (.endOfStream (.int 3) (.int 3)),
          ⟨#[⟨.lparen, .text "("⟩, ⟨.dot, .null⟩, ⟨.number, .text "7"⟩], 3, 2, 3, .mapping⟩) := by
  have hsucceed :
      Succeed (ofTokens [⟨.lparen, some "("⟩, ⟨.dot, none⟩, ⟨.number, some "7"⟩] .mapping)
      [.skip 1, .next 0] := ⟨⟨_, rfl⟩, ⟨_, rfl⟩, trivial⟩
  have hfail := ((advances_from_start _ _).1 [.skip 1, .next 0] (.next 0) hsucceed).2.2 (by decide)
  exact ⟨hsucceed, hfail⟩

/-- A position of too many digits is past the end like any other, but it cannot be shown, and the
fault that is reported says so. -/
theorem next_beyond_digits :
    reach [.next 0] (.next (Nat.pow 10 digitLimit - 1)) = Nat.pow 10 digitLimit ∧
      ((ofTokens [⟨.identifier, some "a"⟩] .record).afterAll [.next 0]).perform
          (.next (Nat.pow 10 digitLimit - 1 : Nat)) =
        (.error (.defective .hugeInteger), ⟨#[⟨.identifier, .text "a"⟩], 1, 0, 1, .record⟩) := by
  have hdigits : ¬(Nat.toDigits 10 (Nat.pow 10 digitLimit)).length ≤ digitLimit :=
    not_digits_pow_le (by decide)
  -- From here on the number matters only by its digits.
  generalize Nat.pow 10 digitLimit = n at hdigits
  have hpositive : 0 < n := by
    rcases Nat.eq_zero_or_pos n with rfl | hpositive
    · exact absurd (by decide) hdigits
    · exact hpositive
  have hreach : reach [.next 0] (.next (n - 1)) = n := by
    simp only [reach_eq, consumed, Advance.offset]
    omega
  have hsucceed : Succeed (ofTokens [⟨.identifier, some "a"⟩] .record) [.next 0] :=
    ⟨⟨_, rfl⟩, trivial⟩
  have hfail := (perform_afterAll (ofTokens_over _ _) hsucceed (.next (n - 1))).2
  rw [hreach, ofTokens_next, Nat.zero_add, pastEnd, if_neg hdigits] at hfail
  exact ⟨hreach, hfail hpositive⟩

end SchemeLexer.Cursor
