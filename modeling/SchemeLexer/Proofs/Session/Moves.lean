import SchemeLexer.Proofs.Conversion
import SchemeLexer.Proofs.Cursor.Invariant
import SchemeLexer.Session
/-!
# Moves of a session

The steps of a session that use its cursors or fork them. What one such step can come to is said
here once: there is no cursor of the number, or that cursor alone is replaced by what an operation
makes of it, or a cursor that has read nothing is added behind the others.
-/

namespace SchemeLexer

/-- A use of a cursor, known by its number, or a fork of it. -/
inductive Move where
  | use (number : Nat) (operation : Cursor.Operation)
  | fork (number : Nat)
  deriving DecidableEq, Repr

namespace Move

def number : Move → Nat
  | .use number _ => number
  | .fork number => number

def step : Move → Step
  | .use number operation => .use number operation
  | .fork number => .fork number

/-- How many cursors there are after a move, if there are `count` before it. -/
def count (count : Nat) : Move → Nat
  | .use _ _ => count
  | .fork number => if number < count then count + 1 else count

theorem count_of_le {count : Nat} {move : Move} (h : count ≤ move.number) :
    move.count count = count := by
  cases move with
  | use number operation => rfl
  | fork number => exact if_neg (Nat.not_lt.2 h)

end Move

namespace Session

variable [Budget]

/-- A session in which a cursor over tokens has been built, and nothing else has happened. -/
def opened (settings : Settings) (tokens : List Record) (r : Representation) : Session :=
  (run ⟨settings, #[]⟩
    (.build (.list (tokens.map Record.value)) (.representation r) .null)).session

theorem opened_eq (settings : Settings) (tokens : List Record) (r : Representation) :
    opened settings tokens r = ⟨settings, #[Cursor.start tokens.toArray r]⟩ := by
  have hrecords := Representation.decodeAll_map_value tokens
  have hbuild := Cursor.build_list hrecords settings r .null
  rw [opened, run, build, hbuild]
  rfl

theorem size_cursors_opened (settings : Settings) (tokens : List Record) (r : Representation) :
    (opened settings tokens r).cursors.size = 1 := by
  rw [opened_eq]
  rfl

/-! ## One move -/

theorem run_of_size_le {s : Session} {move : Move} (h : s.cursors.size ≤ move.number) :
    s.run move.step = ⟨s, .noCursor, none⟩ := by
  have hnone : s.cursors[move.number]? = none := Array.getElem?_eq_none h
  cases move with
  | use number operation =>
      rw [Move.number] at hnone
      rw [Move.step, run, use, hnone]
      rfl
  | fork number =>
      rw [Move.number] at hnone
      rw [Move.step, run, fork, hnone]
      rfl

theorem run_use_of_some {s : Session} {number : Nat} {c : Cursor}
    (h : s.cursors[number]? = some c) (operation : Cursor.Operation) :
    s.run (Move.use number operation).step =
      ⟨⟨s.settings, s.cursors.setIfInBounds number (c.perform operation).2⟩,
        .cursor ((c.perform operation).1.map Reply.value) (some (c.perform operation).2)
          (c.noted operation), none⟩ := by
  rw [Move.step, run, use, h]
  rfl

theorem run_fork_of_some {s : Session} {number : Nat} {c : Cursor}
    (h : s.cursors[number]? = some c) :
    s.run (Move.fork number).step =
      ⟨⟨s.settings, s.cursors.push c.fork⟩,
        .cursor (.ok (.number s.cursors.size)) (some c.fork) [], none⟩ := by
  rw [Move.step, run, fork, h]
  rfl

omit [Budget] in
/-- A move finds no cursor, or it uses or forks the one that it finds. -/
theorem move_cases (s : Session) (move : Move) :
    s.cursors.size ≤ move.number ∨
    ∃ number c, s.cursors[number]? = some c ∧
      ((∃ operation, move = .use number operation) ∨ move = .fork number) := by
  rcases Nat.lt_or_ge move.number s.cursors.size with hlt | hle
  · refine Or.inr ⟨move.number, s.cursors[move.number], Array.getElem?_eq_getElem hlt, ?_⟩
    cases move with
    | use number operation => exact Or.inl ⟨operation, rfl⟩
    | fork number => exact Or.inr rfl
  · exact Or.inl hle

omit [Budget] in
theorem lt_size_of_getElem? {s : Session} {number : Nat} {c : Cursor}
    (h : s.cursors[number]? = some c) : number < s.cursors.size :=
  (Array.getElem?_eq_some_iff.1 h).1

theorem getElem?_run_use {s : Session} {n : Nat} {c : Cursor} (h : s.cursors[n]? = some c)
    (operation : Cursor.Operation) (number : Nat) :
    (s.run (Move.use n operation).step).session.cursors[number]? =
      if n = number then some (c.perform operation).2 else s.cursors[number]? := by
  rw [run_use_of_some h, Array.getElem?_setIfInBounds, if_pos (lt_size_of_getElem? h)]

theorem getElem?_run_fork {s : Session} {n : Nat} {c : Cursor} (h : s.cursors[n]? = some c)
    (number : Nat) :
    (s.run (Move.fork n).step).session.cursors[number]? =
      if number = s.cursors.size then some c.fork else s.cursors[number]? := by
  rw [run_fork_of_some h, Array.getElem?_push]

theorem escaping_run_step (s : Session) (move : Move) : (s.run move.step).escaping = none := by
  rcases s.move_cases move with habsent | ⟨number, c, hfind, ⟨operation, rfl⟩ | rfl⟩
  · rw [run_of_size_le habsent]
  · rw [run_use_of_some hfind]
  · rw [run_fork_of_some hfind]

theorem size_cursors_run (s : Session) (move : Move) :
    (s.run move.step).session.cursors.size = move.count s.cursors.size := by
  rcases s.move_cases move with habsent | ⟨number, c, hfind, ⟨operation, rfl⟩ | rfl⟩
  · rw [run_of_size_le habsent, Move.count_of_le habsent]
  · rw [run_use_of_some hfind, Move.count]
    exact Array.size_setIfInBounds
  · rw [run_fork_of_some hfind, Move.count, if_pos (lt_size_of_getElem? hfind)]
    exact Array.size_push _

/-! ## Tokens and representations stay -/

/-- All cursors of the session have the tokens, know their number and have the representation. -/
def Over (tokens : Array Record) (r : Representation) (s : Session) : Prop :=
  ∀ c ∈ s.cursors, (Cursor.start tokens r).SameContents c

theorem over_opened (settings : Settings) (tokens : List Record) (r : Representation) :
    (opened settings tokens r).Over tokens.toArray r := by
  intro c hc
  rw [opened_eq] at hc
  obtain rfl : c = Cursor.start tokens.toArray r := by simpa using hc
  exact ⟨rfl, rfl, rfl⟩

theorem Over.run {tokens : Array Record} {r : Representation} {s : Session}
    (h : s.Over tokens r) (move : Move) : (s.run move.step).session.Over tokens r := by
  rcases s.move_cases move with habsent | ⟨number, c, hfind, ⟨operation, rfl⟩ | rfl⟩
  · rwa [run_of_size_le habsent]
  · have hc := h c (Array.mem_of_getElem? hfind)
    rw [run_use_of_some hfind]
    intro d hd
    rcases Array.mem_or_eq_of_mem_setIfInBounds hd with hold | rfl
    · exact h d hold
    · exact hc.trans (c.sameContents_perform operation)
  · rw [run_fork_of_some hfind]
    intro d hd
    rcases Array.mem_push.1 hd with hold | rfl
    · exact h d hold
    · exact h c (Array.mem_of_getElem? hfind)

/-! ## Runs of moves -/

def makeAll (s : Session) (moves : List Move) : Outcome (List Answer) :=
  s.runAll (moves.map Move.step)

@[simp] theorem makeAll_nil (s : Session) : s.makeAll [] = ⟨s, [], none⟩ := by
  rw [makeAll, List.map_nil, runAll]

/-- No move lets a fault out, so that the moves after it are made whatever it comes to. -/
theorem makeAll_cons (s : Session) (move : Move) (moves : List Move) :
    s.makeAll (move :: moves) =
      ⟨((s.run move.step).session.makeAll moves).session,
        (s.run move.step).answer :: ((s.run move.step).session.makeAll moves).answer,
        ((s.run move.step).session.makeAll moves).escaping⟩ := by
  rw [makeAll, List.map_cons, runAll, escaping_run_step]
  rfl

end Session

end SchemeLexer
