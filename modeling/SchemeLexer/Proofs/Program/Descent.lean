import SchemeLexer.Proofs.Program.Reading
/-!
# Recursive descent and the stack

Parsing by recursive descent gives what reading with a stack gives, for every cursor that hands out
records: the same program, and the cursor at the same place. Wherever descent finds an expression,
the stack comes to add it; where descent runs out of tokens inside a list, the stack is left with
open lists and has finished nothing more. A cursor that hands out anything else than records is
not parsed at all.
-/

namespace SchemeLexer

/-- A cursor that hands out records and stands among its tokens, which are so few that their number
can be shown. -/
structure Cursor.Descends (c : Cursor) : Prop where
  representation_eq : c.representation = .record
  size_eq : c.size = c.tokens.size
  next_le : c.next ≤ c.size
  digits : (Nat.toDigits 10 c.size).length ≤ digitLimit

theorem Cursor.descends_start {tokens : Array Record}
    (h : (Nat.toDigits 10 tokens.size).length ≤ digitLimit) :
    (Cursor.start tokens .record).Descends :=
  ⟨rfl, rfl, Nat.zero_le _, h⟩

namespace Cursor.Descends

variable {c : Cursor} {t : Record}

theorem lt_of_some (h : c.Descends) (ht : c.tokens[c.next]? = some t) : c.next < c.size := by
  rw [h.size_eq]
  exact (Array.getElem?_eq_some_iff.1 ht).1

theorem movedTo_next (h : c.Descends) (ht : c.tokens[c.next]? = some t) :
    (c.movedTo c.next).Descends :=
  ⟨h.representation_eq, h.size_eq, h.lt_of_some ht, h.digits⟩

theorem tokenAt_of_some (h : c.Descends) {i : Nat} (ht : c.tokens[i]? = some t) :
    c.tokenAt i = .ok t.value := by
  rw [tokenAt, ht]
  simp only [encode, h.representation_eq]
  rfl

/-- Either a token comes next, or the cursor stands at the end. -/
theorem next_cases (h : c.Descends) :
    (∃ t, c.tokens[c.next]? = some t) ∨ c.size ≤ c.next := by
  by_cases hlt : c.next < c.tokens.size
  · exact Or.inl ⟨_, Array.getElem?_eq_getElem hlt⟩
  · exact Or.inr (h.size_eq ▸ Nat.not_lt.1 hlt)

end Cursor.Descends

namespace Program

variable [Budget] {c : Cursor}

/-! ## One token -/

theorem lookahead_zero_of_some {t : Record} (h : c.Descends) (ht : c.tokens[c.next]? = some t) :
    c.lookahead 0 = .ok t.value := by
  have hlt := h.lt_of_some ht
  rw [Cursor.lookahead, if_neg (by decide), if_neg (Nat.not_le.2 hlt)]
  simp only [Int.toNat_zero, Nat.add_zero, if_neg (Nat.not_le.2 hlt)]
  exact h.tokenAt_of_some ht

theorem lookahead_zero_of_le (h : c.Descends) (hend : c.size ≤ c.next) :
    c.lookahead 0 = .error (.endOfStream (.int c.next) (.int c.size)) := by
  have hnext : c.next = c.size := Nat.le_antisymm h.next_le hend
  rw [Cursor.lookahead, if_neg (by decide), if_pos hend, Fault.raise,
    Cursor.settle_endOfStream hend, Cursor.pastEnd, if_pos (hnext ▸ h.digits)]

theorem comes_of_some {t : Record} (h : c.Descends) (ht : c.tokens[c.next]? = some t) (k : Kind) :
    comes k c = .ok (decide (t.kind = k)) := by
  rw [comes, lookahead_zero_of_some h ht]
  rfl

theorem comes_of_le (h : c.Descends) (hend : c.size ≤ c.next) (k : Kind) :
    comes k c = .error (.endOfStream (.int c.next) (.int c.size)) := by
  rw [comes, lookahead_zero_of_le h hend]
  rfl

theorem nextToken_of_some {t : Record} (h : c.Descends) (ht : c.tokens[c.next]? = some t) :
    (nextToken c).outcome = .ok t.value ∧ (nextToken c).cursor = c.movedTo c.next := by
  simp only [nextToken, Cursor.perform, advance_zero_of_lt (h.lt_of_some ht),
    Cursor.movedTo_current, Cursor.tokenAt_movedTo, and_true]
  exact h.tokenAt_of_some ht

omit [Budget] in
theorem atom_value (t : Record) : atom t.value = .ok (.atom t.literal) := rfl

/-! ## Agreement -/

namespace Parsed

variable {α β : Type}

/-- Reading with a stack goes the way of what was parsed: either something was found, and the stack
comes to where `add` puts it, or the tokens ended, and the stack has finished nothing more. -/
def Agrees (p : Parsed α c) (b : Builder) (add : α → Builder) : Prop :=
  (∃ a, p.outcome = .ok a ∧ p.cursor.Descends ∧ consume b c = consume (add a) p.cursor) ∨
    (∃ position size, p.outcome = .error (.endOfStream position size)) ∧
      (consume b c).1.finished = b.finished ∧ (consume b c).2 = p.cursor

theorem agrees_fail {position size : Value} {b : Builder} {add : α → Builder}
    (hend : c.size ≤ c.next) : (fail (.endOfStream position size) c : Parsed α c).Agrees b add := by
  refine Or.inr ⟨⟨position, size, rfl⟩, ?_, ?_⟩
  · rw [consume_of_le hend]
  · rw [consume_of_le hend]
    rfl

theorem Agrees.bind {p : Parsed α c} {b : Builder} {add : α → Builder} (h : p.Agrees b add)
    {f : α → Except Fault β} {add' : β → Builder}
    (hf : ∀ a, p.outcome = .ok a → ∃ e, f a = .ok e ∧ add' e = add a) :
    (p.bind f).Agrees b add' := by
  have hbind : (p.bind f).outcome = p.outcome.bind f := rfl
  rcases h with ⟨a, houtcome, hcursor, hconsume⟩ | ⟨⟨position, size, houtcome⟩, hends⟩
  · obtain ⟨e, he, hadd⟩ := hf a houtcome
    refine Or.inl ⟨e, ?_, hcursor, ?_⟩
    · rw [hbind, houtcome, ← he]
      rfl
    · rw [hadd, hconsume]
      rfl
  · refine Or.inr ⟨⟨position, size, ?_⟩, hends⟩
    rw [hbind, houtcome]
    rfl

omit [Budget] in
theorem andThen_of_ok {p : Parsed α c} {a : α} (h : p.outcome = .ok a)
    (f : α → (d : Cursor) → d.remaining < c.remaining → Parsed β d) :
    (p.andThen f).outcome = (f a p.cursor (p.shorter a h)).outcome ∧
      (p.andThen f).cursor = (f a p.cursor (p.shorter a h)).cursor := by
  rw [andThen]
  split
  · rename_i fault hfault
    cases h.symm.trans hfault
  · rename_i a' ha'
    cases h.symm.trans ha'
    exact ⟨rfl, rfl⟩

omit [Budget] in
theorem andThen_of_error {p : Parsed α c} {fault : Fault} (h : p.outcome = .error fault)
    (f : α → (d : Cursor) → d.remaining < c.remaining → Parsed β d) :
    p.andThen f = fail fault p.cursor := by
  rw [andThen]
  split
  · rename_i fault' hfault
    cases h.symm.trans hfault
    rfl
  · rename_i a ha
    cases h.symm.trans ha

theorem Agrees.andThen {p : Parsed α c} {b : Builder} {add : α → Builder} (h : p.Agrees b add)
    {f : α → (d : Cursor) → d.remaining < c.remaining → Parsed β d} {add' : β → Builder}
    (hfinished : ∀ a, (add a).finished = b.finished)
    (hf : ∀ a d (hd : d.remaining < c.remaining), d.Descends → (f a d hd).Agrees (add a) add') :
    (p.andThen f).Agrees b add' := by
  rcases h with ⟨a, houtcome, hcursor, hconsume⟩ | ⟨⟨position, size, houtcome⟩, hends⟩
  · obtain ⟨houtcome', hcursor'⟩ := andThen_of_ok houtcome f
    have hrest := hf a p.cursor (p.shorter a houtcome) hcursor
    rw [Agrees, houtcome', hcursor', hconsume, ← hfinished a]
    exact hrest
  · rw [andThen_of_error houtcome]
    exact Or.inr ⟨⟨position, size, rfl⟩, hends⟩

end Parsed

theorem nextToken_agrees {t : Record} (h : c.Descends) (ht : c.tokens[c.next]? = some t)
    (b : Builder) : (nextToken c).Agrees b fun _ => b.feed t := by
  obtain ⟨houtcome, hcursor⟩ := nextToken_of_some h ht
  refine Or.inl ⟨t.value, houtcome, ?_, ?_⟩
  · rw [hcursor]
    exact h.movedTo_next ht
  · rw [hcursor, consume_of_some (h.lt_of_some ht) ht]

-- Both proofs descend as the parser does. At top level an expression may begin with a closing
-- parenthesis; inside a list the parser has looked at the token before it comes to an expression.
mutual

theorem parseExpression_agrees (c : Cursor) (h : c.Descends) (b : Builder)
    (hb : b.opened = [] ∨ ∀ t, c.tokens[c.next]? = some t → t.kind ≠ .rparen) :
    (parseExpression c).Agrees b b.add := by
  rw [parseExpression]
  rcases h.next_cases with ⟨t, ht⟩ | hend
  · rw [comes_of_some h ht]
    have hnext := nextToken_agrees h ht b
    by_cases hopening : t.kind = .lparen
    · simp only [hopening, decide_true]
      rw [parseList]
      rw [Builder.feed_of_lparen b hopening] at hnext
      have hitems := hnext.andThen (fun _ => rfl) fun _ d hd hdescends =>
        parseItems_agrees d hdescends b.finished [] b.opened
      exact hitems.bind fun items _ => ⟨.list items, rfl, rfl⟩
    · simp only [hopening, decide_false]
      refine hnext.bind fun v hv =>
        ⟨.atom t.literal, ?_, (Builder.feed_of_not_opening hopening ?_).symm⟩
      · cases (nextToken_of_some h ht).1.symm.trans hv
        exact atom_value t
      · exact hb.imp_right fun hclosing => hclosing t ht
  · rw [comes_of_le h hend]
    exact Parsed.agrees_fail hend
termination_by (c.remaining, 0)

theorem parseItems_agrees (c : Cursor) (h : c.Descends) (finished items : List Expression)
    (outer : List (List Expression)) :
    (parseItems c items).Agrees ⟨finished, items :: outer⟩ fun found =>
      Builder.add ⟨finished, outer⟩ (.list found) := by
  rw [parseItems]
  rcases h.next_cases with ⟨t, ht⟩ | hend
  · rw [comes_of_some h ht]
    by_cases hclosing : t.kind = .rparen
    · simp only [hclosing, decide_true]
      refine (nextToken_agrees h ht _).bind fun _ _ => ⟨items.reverse, rfl, ?_⟩
      exact (Builder.feed_of_rparen finished items outer hclosing).symm
    · simp only [hclosing, decide_false]
      have hfirst := parseExpression_agrees c h ⟨finished, items :: outer⟩
        (Or.inr fun t' ht' => by
          cases ht.symm.trans ht'
          exact hclosing)
      exact hfirst.andThen (fun _ => rfl) fun e d hd hdescends =>
        parseItems_agrees d hdescends finished (e :: items) outer
  · rw [comes_of_le h hend]
    exact Parsed.agrees_fail hend
termination_by (c.remaining, 1)

end

/-! ## Whole programs -/

theorem parse_of_ok {e : Expression} (h : (parseExpression c).outcome = .ok e) :
    parse c = ((parse (parseExpression c).cursor).1.map fun program => e :: program,
      (parse (parseExpression c).cursor).2) := by
  rw [parse]
  split
  · rename_i e' he'
    cases h.symm.trans he'
    rfl
  · rename_i hfault
    cases h.symm.trans hfault
  · rename_i hfault
    cases h.symm.trans hfault

theorem parse_of_endOfStream {position size : Value}
    (h : (parseExpression c).outcome = .error (.endOfStream position size)) :
    parse c = (.ok [], (parseExpression c).cursor) := by
  rw [parse]
  split
  · rename_i he
    cases h.symm.trans he
  · rfl
  · rename_i fault hother hfault
    cases h.symm.trans hfault
    exact absurd rfl (hother position size)

theorem parse_of_error {fault : Fault} (h : (parseExpression c).outcome = .error fault)
    (hfault : ∀ position size, fault ≠ .endOfStream position size) :
    parse c = (.error fault, (parseExpression c).cursor) := by
  rw [parse]
  split
  · rename_i he
    cases h.symm.trans he
  · rename_i position size hend
    cases h.symm.trans hend
    exact absurd rfl (hfault position size)
  · rename_i hother
    cases h.symm.trans hother
    rfl

theorem parse_agrees (c : Cursor) (h : c.Descends) (finished : List Expression) :
    ∃ program, parse c = (.ok program, (consume ⟨finished, []⟩ c).2) ∧
      (consume ⟨finished, []⟩ c).1.finished = program.reverse ++ finished := by
  rcases parseExpression_agrees c h ⟨finished, []⟩ (Or.inl rfl) with
    ⟨e, houtcome, hdescends, hconsume⟩ | ⟨⟨position, size, houtcome⟩, hfinished, hcursor⟩
  · have hshorter := (parseExpression c).shorter e houtcome
    obtain ⟨program, hparse, hfinished⟩ :=
      parse_agrees (parseExpression c).cursor hdescends (e :: finished)
    refine ⟨e :: program, ?_, ?_⟩
    · rw [parse_of_ok houtcome, hparse, hconsume]
      rfl
    · rw [hconsume, List.reverse_cons, List.append_assoc]
      exact hfinished
  · exact ⟨[], by rw [parse_of_endOfStream houtcome, hcursor], hfinished⟩
termination_by c.remaining

/-- Parsing by recursive descent gives the program that reading with a stack gives, and comes to
the same place. -/
theorem parse_eq_read (h : c.Descends) : parse c = (.ok (read c).1, (read c).2) := by
  obtain ⟨program, hparse, hfinished⟩ := parse_agrees c h []
  have hread : read c =
      ((consume Builder.start c).1.finished.reverse, (consume Builder.start c).2) := rfl
  rw [hparse, hread, Builder.start, hfinished, List.append_nil, List.reverse_reverse]

/-! ## Other representations -/

theorem comes_of_not_record {tokens : List Token} (h : c.Over tokens)
    (hr : c.representation ≠ .record) (hnext : c.next < tokens.length) (k : Kind) :
    comes k c = .error (.defective
      (.missingPart (c.representation.encode tokens[c.next]).typeName "kind")) := by
  have hlookahead : c.lookahead 0 = .ok (c.representation.encode tokens[c.next]) := by
    rw [Cursor.lookahead, if_neg (by decide), h.size_eq, if_neg (Nat.not_le.2 hnext)]
    simp only [Int.toNat_zero, Nat.add_zero, if_neg (Nat.not_le.2 hnext)]
    exact h.tokenAt hnext
  rw [comes, hlookahead]
  cases hform : c.representation with
  | record => exact absurd hform hr
  | mapping => rfl
  | jsonText => rfl

/-- A cursor with tokens left that does not hand out records fails at the first of them and stays
where it was. -/
theorem parse_of_not_record {tokens : List Token} (h : c.Over tokens)
    (hr : c.representation ≠ .record) (hnext : c.next < tokens.length) :
    parse c = (.error (.defective
      (.missingPart (c.representation.encode tokens[c.next]).typeName "kind")), c) := by
  have hcomes := comes_of_not_record h hr hnext .lparen
  generalize Defect.missingPart _ "kind" = defect at hcomes ⊢
  have hfails : parseExpression c = .fail (.defective defect) c := by
    rw [parseExpression, hcomes]
  have houtcome : (parseExpression c).outcome = .error (.defective defect) := by
    rw [hfails]
    rfl
  rw [parse_of_error houtcome (fun _ _ => nofun), hfails]
  rfl

end Program

end SchemeLexer
