import SchemeLexer.Program
import SchemeLexer.Proofs.Cursor.Moves
/-!
# Reading as a fold

Reading a program from a cursor feeds the tokens that are left to the builder, one after the
other, and nothing else of the cursor matters. What one token does to the builder depends on its
kind and on whether a list is open.
-/

namespace SchemeLexer

namespace Program

section

variable [Budget]

theorem advance_zero_of_lt {c : Cursor} (h : c.next < c.size) :
    c.advance 0 = .ok (c.movedTo c.next) :=
  Cursor.advance_of_lt h

theorem advance_zero_of_le {c : Cursor} (h : c.size ≤ c.next) :
    c.advance 0 = .error (Cursor.pastEnd c.next c.size) :=
  Cursor.advance_of_le h

theorem consume_of_some {b : Builder} {c : Cursor} {t : Record} (hlt : c.next < c.size)
    (h : c.tokens[c.next]? = some t) :
    consume b c = consume (b.feed t) (c.movedTo c.next) := by
  rw [consume, advance_zero_of_lt hlt]
  simp only [Cursor.movedTo_tokens, Cursor.movedTo_current, h]

theorem consume_of_le {b : Builder} {c : Cursor} (h : c.size ≤ c.next) :
    consume b c = (b, c) := by
  rw [consume, advance_zero_of_le h]

/-- The builder sees exactly the tokens that are left. The induction is on these tokens, so that
each step of the cursor takes the first of them. -/
theorem consume_fst (b : Builder) {c : Cursor} (hsize : c.size = c.tokens.size) :
    (consume b c).1 = (c.tokens.toList.drop c.next).foldl Builder.feed b := by
  generalize hleft : c.tokens.toList.drop c.next = left
  induction left generalizing b c with
  | nil =>
      have hend : c.size ≤ c.next := by
        rw [hsize, ← Array.length_toList]
        exact List.drop_eq_nil_iff.1 hleft
      rw [consume_of_le hend, List.foldl_nil]
  | cons t left ih =>
      have hsome : c.tokens[c.next]? = some t := by
        have hhead : (c.tokens.toList.drop c.next)[0]? = some t := by rw [hleft]; rfl
        rwa [List.getElem?_drop, Nat.add_zero, Array.getElem?_toList] at hhead
      have hlt : c.next < c.size := by
        rw [hsize]
        exact (Array.getElem?_eq_some_iff.1 hsome).1
      have htail : c.tokens.toList.drop (c.next + 1) = left := by
        rw [← List.tail_drop, hleft, List.tail_cons]
      rw [consume_of_some hlt hsome, List.foldl_cons]
      exact ih _ hsize htail

/-- Nothing but the end of the tokens stops the builder. -/
theorem next_consume (b : Builder) {c : Cursor} (hsize : c.size = c.tokens.size)
    (h : c.next ≤ c.size) : (consume b c).2.next = c.size := by
  generalize hleft : c.remaining = left
  induction left generalizing b c with
  | zero =>
      have hend : c.size ≤ c.next := Nat.sub_eq_zero_iff_le.1 hleft
      rw [consume_of_le hend]
      exact Nat.le_antisymm h hend
  | succ left ih =>
      have hlt : c.next < c.size := by
        rw [Cursor.remaining] at hleft
        omega
      have hrest : c.size - (c.next + 1) = left := by
        rw [Cursor.remaining] at hleft
        omega
      rw [consume_of_some hlt (Array.getElem?_eq_getElem (hsize ▸ hlt))]
      exact ih _ hsize hlt hrest

theorem read_start (tokens : List Record) (r : Representation) :
    (read (Cursor.start tokens.toArray r)).1 =
      (tokens.foldl Builder.feed .start).finished.reverse := by
  have hsize : (Cursor.start tokens.toArray r).size = tokens.toArray.size := rfl
  simp only [read, consume_fst .start hsize]
  rfl

theorem next_read_start (tokens : List Record) (r : Representation) :
    (read (Cursor.start tokens.toArray r)).2.next = tokens.length :=
  next_consume .start rfl (Nat.zero_le _)

end

/-! ## One token -/

namespace Builder

theorem feed_of_lparen (b : Builder) {t : Record} (h : t.kind = .lparen) :
    b.feed t = ⟨b.finished, [] :: b.opened⟩ := by
  rw [feed, h]

theorem feed_of_rparen (finished items : List Expression) (outer : List (List Expression))
    {t : Record} (h : t.kind = .rparen) :
    feed ⟨finished, items :: outer⟩ t = add ⟨finished, outer⟩ (.list items.reverse) := by
  rw [feed, h]

theorem feed_stray (finished : List Expression) {t : Record} (h : t.kind = .rparen) :
    feed ⟨finished, []⟩ t = ⟨.atom t.literal :: finished, []⟩ := by
  rw [feed, h]
  rfl

theorem feed_atom (b : Builder) {t : Record} (hopening : t.kind ≠ .lparen)
    (hclosing : t.kind ≠ .rparen) : b.feed t = b.add (.atom t.literal) := by
  unfold feed
  split
  · contradiction
  · contradiction
  · rfl

/-- Outside every list only an opening parenthesis is no atom. -/
theorem feed_of_not_opening {b : Builder} {t : Record} (hopening : t.kind ≠ .lparen)
    (hclosing : b.opened = [] ∨ t.kind ≠ .rparen) : b.feed t = b.add (.atom t.literal) := by
  obtain ⟨finished, opened⟩ := b
  rcases hclosing with rfl | hclosing
  · by_cases hclosing : t.kind = .rparen
    · exact feed_stray finished hclosing
    · exact feed_atom _ hopening hclosing
  · exact feed_atom _ hopening hclosing

end Builder

end Program

end SchemeLexer
