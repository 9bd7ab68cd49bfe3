import SchemeLexer.Cursor
/-!
# Programs

The nested lists that the tokens of a cursor spell. An opening parenthesis begins a list and a
closing one ends it; everything else is an atom, and so is a closing parenthesis outside every
list. A list that is not ended by the last token is dropped.

Programs are parsed by recursive descent, which looks one token ahead and needs tokens that are
handed out as records. What it finds is also found by reading the tokens one after the other, with
the open lists on a stack.
-/

namespace SchemeLexer

/-- An expression: an atom, known by its literal, or a list of expressions. -/
inductive Expression where
  | atom (literal : Value)
  | list (items : List Expression)

namespace Program

/-! ## Recursive descent -/

/-- What is found at a cursor, and the cursor after it. Something is found only by reading. -/
structure Parsed (α : Type) (c : Cursor) where
  outcome : Except Fault α
  cursor : Cursor
  shorter : ∀ a, outcome = .ok a → cursor.remaining < c.remaining

namespace Parsed

variable {α β : Type} {c : Cursor}

def fail (fault : Fault) (moved : Cursor) : Parsed α c :=
  ⟨.error fault, moved, fun _ => nofun⟩

def bind (p : Parsed α c) (f : α → Except Fault β) : Parsed β c where
  outcome := p.outcome.bind f
  cursor := p.cursor
  shorter := by
    intro b h
    cases hp : p.outcome with
    | error fault =>
        rw [hp] at h
        cases h
    | ok a => exact p.shorter a hp

def andThen (p : Parsed α c)
    (f : α → (d : Cursor) → d.remaining < c.remaining → Parsed β d) : Parsed β c :=
  match h : p.outcome with
  | .error fault => fail fault p.cursor
  | .ok a =>
      have hp := p.shorter a h
      let rest := f a p.cursor hp
      ⟨rest.outcome, rest.cursor, fun b hb => Nat.lt_trans (rest.shorter b hb) hp⟩

end Parsed

variable [Budget]

def nextToken (c : Cursor) : Parsed Value c where
  outcome := (c.perform (.next 0)).1
  cursor := (c.perform (.next 0)).2
  shorter := by
    intro v h
    rw [Cursor.perform] at h ⊢
    cases hadvance : c.advance 0 with
    | ok moved => exact Cursor.remaining_advance hadvance
    | error fault =>
        rw [hadvance] at h
        cases h

/-- Whether the token that comes next is of a kind. Only records have one. -/
def comes (k : Kind) (c : Cursor) : Except Fault Bool := do
  let t ← c.lookahead 0
  let r ← (RawRecord.ofValue "kind" t).mapError Fault.defective
  return r.kind.isKind k

def atom (t : Value) : Except Fault Expression := do
  let r ← (RawRecord.ofValue "literal" t).mapError Fault.defective
  return .atom r.literal

mutual

def parseExpression (c : Cursor) : Parsed Expression c :=
  match comes .lparen c with
  | .error fault => .fail fault c
  | .ok true => parseList c
  | .ok false => (nextToken c).bind atom
termination_by (c.remaining, 1)

def parseList (c : Cursor) : Parsed Expression c :=
  ((nextToken c).andThen fun _ d _ => parseItems d []).bind fun items => .ok (.list items)
termination_by (c.remaining, 0)

def parseItems (c : Cursor) (items : List Expression) : Parsed (List Expression) c :=
  match comes .rparen c with
  | .error fault => .fail fault c
  | .ok true => (nextToken c).bind fun _ => .ok items.reverse
  | .ok false => (parseExpression c).andThen fun e d _ => parseItems d (e :: items)
termination_by (c.remaining, 2)

end

/-- Parses expressions up to the end of the tokens. -/
def parse (c : Cursor) : Except Fault (List Expression) × Cursor :=
  match h : (parseExpression c).outcome with
  | .ok e =>
      have := (parseExpression c).shorter e h
      let (rest, last) := parse (parseExpression c).cursor
      (rest.map fun program => e :: program, last)
  -- what was read of an expression that does not end is dropped
  | .error (.endOfStream _ _) => (.ok [], (parseExpression c).cursor)
  | .error fault => (.error fault, (parseExpression c).cursor)
termination_by c.remaining

/-! ## Reading with a stack -/

/-- What has been read of a program, all in reverse: the finished expressions, and the items of the
lists that are still open, the innermost first. -/
structure Builder where
  finished : List Expression
  opened : List (List Expression)

namespace Builder

def start : Builder := ⟨[], []⟩

/-- Adds an expression to the innermost open list, or to the program if there is none. -/
def add (b : Builder) (e : Expression) : Builder :=
  match b.opened with
  | [] => ⟨e :: b.finished, []⟩
  | items :: outer => ⟨b.finished, (e :: items) :: outer⟩

def feed (b : Builder) (t : Record) : Builder :=
  match t.kind, b.opened with
  | .lparen, _ => ⟨b.finished, [] :: b.opened⟩
  | .rparen, items :: outer => add ⟨b.finished, outer⟩ (.list items.reverse)
  | _, _ => b.add (.atom t.literal)

end Builder

def consume (b : Builder) (c : Cursor) : Builder × Cursor :=
  match _h : c.advance 0 with
  | .ok moved =>
      match moved.tokens[moved.current]? with
      | some t => consume (b.feed t) moved
      | none => (b, c)
  | .error _ => (b, c)
termination_by c.remaining
decreasing_by exact Cursor.remaining_advance _h

/-- The expressions that the remaining tokens of a cursor spell, and the cursor after the last of
them. -/
def read (c : Cursor) : List Expression × Cursor :=
  let (b, c) := consume .start c
  (b.finished.reverse, c)

end Program

end SchemeLexer
