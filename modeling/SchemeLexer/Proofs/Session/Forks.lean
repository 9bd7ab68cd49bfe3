import SchemeLexer.Proofs.Cursor.Advances
import SchemeLexer.Proofs.Session.Moves
/-!
# Forks do not interfere

However the uses of a cursor, of its forks and of their forks are interleaved, each cursor answers
as if it were alone: as one that has read nothing and is given only the operations that were meant
for it. A move is followed by what it does to the cursor of one number; that number is fixed, while
the moves may be about any.
-/

namespace SchemeLexer

namespace Move

/-- The operations of a move that the cursor of a number is given, if there are `count` cursors. A
number that no cursor has yet is not heard by the one that gets it later. -/
def own (number count : Nat) : Move → List Cursor.Operation
  | .use n operation => if n = number ∧ n < count then [operation] else []
  | .fork _ => []

def ownAll (number : Nat) : Nat → List Move → List Cursor.Operation
  | _, [] => []
  | count, move :: moves => move.own number count ++ ownAll number (move.count count) moves

theorem own_of_le {count : Nat} {move : Move} (number : Nat) (h : count ≤ move.number) :
    move.own number count = [] := by
  cases move with
  | use n operation => exact if_neg fun hown => Nat.not_lt.2 h hown.2
  | fork n => rfl

theorem own_use {number count : Nat} (operation : Cursor.Operation) (h : number < count) :
    (use number operation).own number count = [operation] :=
  if_pos ⟨rfl, h⟩

theorem own_use_of_ne {number n : Nat} (count : Nat) (operation : Cursor.Operation)
    (h : n ≠ number) : (use n operation).own number count = [] :=
  if_neg fun hown => h hown.1

end Move

namespace Cursor

variable [Budget]

theorem after_append (c : Cursor) (operations others : List Operation) :
    c.after (operations ++ others) = (c.after operations).after others := by
  simp [after]

omit [Budget] in
theorem SameContents.toList {c d : Cursor} (h : c.SameContents d) : d.toList = c.toList := by
  obtain ⟨htokens, -, hrepresentation⟩ := h
  have hencode : d.encode = c.encode := by
    funext t
    rw [encode, encode, hrepresentation]
  rw [Cursor.toList, Cursor.toList, htokens, hencode]

omit [Budget] in
theorem SameContents.fork {c d : Cursor} (h : c.SameContents d) : d.fork = c.fork := by
  obtain ⟨htokens, hsize, hrepresentation⟩ := h
  rw [Cursor.fork, Cursor.fork, htokens, hsize, hrepresentation]

end Cursor

namespace Session

section

variable [Budget]

/-- What the cursor of a number answers to a move: a value or a fault, if it is used at all. -/
def told (number : Nat) : Move → Answer → List (Except Fault Reply)
  | .use n _, .cursor outcome _ _ => if n = number then [outcome] else []
  | _, _ => []

/-- What the cursor of a number answers in a run of moves. -/
def replies (s : Session) (number : Nat) (moves : List Move) : List (Except Fault Reply) :=
  (List.zipWith (told number) moves (s.makeAll moves).answer).flatten

theorem replies_cons (s : Session) (number : Nat) (move : Move) (moves : List Move) :
    s.replies number (move :: moves) =
      told number move (s.run move.step).answer ++
        (s.run move.step).session.replies number moves := by
  rw [replies, makeAll_cons, List.zipWith_cons_cons, List.flatten_cons, replies]

/-- The cursor of a number, or, if there is none yet, what it will be as a fork. -/
def cursorAt (s : Session) (fresh : Cursor) (number : Nat) : Cursor :=
  s.cursors[number]?.getD fresh

/-! ## One move -/

variable {tokens : Array Record} {r : Representation} {s : Session}

/-- A move gives the cursor of a number its own operation and leaves it alone otherwise; a fork
that gets the number is what was expected. -/
theorem cursorAt_run (h : s.Over tokens r) (number : Nat) (move : Move) :
    (s.run move.step).session.cursorAt (Cursor.start tokens r) number =
      (s.cursorAt (Cursor.start tokens r) number).after
        (move.own number s.cursors.size) := by
  rcases s.move_cases move with habsent | ⟨n, c, hfind, ⟨operation, rfl⟩ | rfl⟩
  · rw [run_of_size_le habsent, Move.own_of_le number habsent, Cursor.after_nil]
  · rw [cursorAt, getElem?_run_use hfind]
    by_cases hn : n = number
    · subst hn
      rw [if_pos rfl, Move.own_use operation (lt_size_of_getElem? hfind), cursorAt, hfind]
      rfl
    · rw [if_neg hn, Move.own_use_of_ne _ operation hn]
      rfl
  · have hfork : c.fork = Cursor.start tokens r := (h c (Array.mem_of_getElem? hfind)).fork
    rw [cursorAt, getElem?_run_fork hfind, hfork]
    -- the new cursor takes the first number that was free, and all others keep theirs
    by_cases hnumber : number = s.cursors.size
    · rw [if_pos hnumber, cursorAt, Array.getElem?_eq_none (Nat.le_of_eq hnumber.symm)]
      rfl
    · rw [if_neg hnumber]
      rfl

theorem told_run (number : Nat) (fresh : Cursor) (move : Move) :
    told number move (s.run move.step).answer =
      (Cursor.answers (s.cursorAt fresh number) (move.own number s.cursors.size)).map
        (Except.map Reply.value) := by
  rcases s.move_cases move with habsent | ⟨n, c, hfind, ⟨operation, rfl⟩ | rfl⟩
  · rw [run_of_size_le habsent, Move.own_of_le number habsent]
    cases move <;> rfl
  · rw [run_use_of_some hfind, told]
    by_cases hn : n = number
    · subst hn
      rw [if_pos rfl, Move.own_use operation (lt_size_of_getElem? hfind), cursorAt, hfind]
      rfl
    · rw [if_neg hn, Move.own_use_of_ne _ operation hn]
      rfl
  · rfl

/-! ## Runs of moves -/

theorem replies_eq (h : s.Over tokens r) (number : Nat) (moves : List Move) :
    s.replies number moves =
      (Cursor.answers (s.cursorAt (Cursor.start tokens r) number)
        (Move.ownAll number s.cursors.size moves)).map (Except.map Reply.value) := by
  induction moves generalizing s with
  | nil => rfl
  | cons move moves ih =>
      have hrest := ih (h.run move)
      rw [size_cursors_run, cursorAt_run h] at hrest
      rw [replies_cons, told_run number (Cursor.start tokens r), hrest, Move.ownAll,
        Cursor.answers_append, List.map_append]

theorem cursorAt_makeAll (h : s.Over tokens r) (number : Nat) (moves : List Move) :
    (s.makeAll moves).session.cursorAt (Cursor.start tokens r) number =
      (s.cursorAt (Cursor.start tokens r) number).after
        (Move.ownAll number s.cursors.size moves) := by
  induction moves generalizing s with
  | nil => rw [makeAll_nil, Move.ownAll, Cursor.after_nil]
  | cons move moves ih =>
      have hrest := ih (h.run move)
      rw [size_cursors_run, cursorAt_run h] at hrest
      rw [makeAll_cons, Move.ownAll, Cursor.after_append]
      exact hrest

/-- A cursor that alone is used answers by itself, whatever other cursors there are. -/
theorem replies_map_use {number : Nat} {c : Cursor} (h : s.cursors[number]? = some c)
    (operations : List Cursor.Operation) :
    s.replies number (operations.map (.use number)) =
      (Cursor.answers c operations).map (Except.map Reply.value) := by
  induction operations generalizing s c with
  | nil => rfl
  | cons operation operations ih =>
      have hmoved : (s.run (Move.use number operation).step).session.cursors[number]? =
          some (c.perform operation).2 := by
        rw [getElem?_run_use h, if_pos rfl]
      rw [List.map_cons, replies_cons, ih hmoved, run_use_of_some h, told, if_pos rfl]
      rfl

theorem replies_fork {number : Nat} {c : Cursor} (h : s.cursors[number]? = some c)
    (later : List Cursor.Operation) :
    s.replies s.cursors.size (.fork number :: later.map (.use s.cursors.size)) =
      (Cursor.answers c.fork later).map (Except.map Reply.value) := by
  have hfork : (s.run (Move.fork number).step).session.cursors[s.cursors.size]? =
      some c.fork := by
    rw [getElem?_run_fork h, if_pos rfl]
  rw [replies_cons, replies_map_use hfork]
  rfl

/-- In a session that begins with one cursor, each cursor answers as one over the same tokens that
has read nothing and is given its own operations alone, and it comes to stand where that one does;
what it iterates over is always the same. In whatever state a cursor is, its fork is the cursor that
it becomes when it is rewound, and answers as that one does to all that follows. -/
theorem replies_alone (settings : Settings) (tokens : List Record) (r : Representation)
    (moves : List Move) :
    (∀ number : Nat, (opened settings tokens r).replies number moves =
      (Cursor.answers (Cursor.start tokens.toArray r) (Move.ownAll number 1 moves)).map
        (Except.map Reply.value)) ∧
    (∀ number c, ((opened settings tokens r).makeAll moves).session.cursors[number]? = some c →
      c = (Cursor.start tokens.toArray r).after (Move.ownAll number 1 moves) ∧
        c.toList = tokens.mapM fun t => (t.value.encoded r).mapError Fault.defective) ∧
    ∀ (s : Session) (number : Nat) (c : Cursor), s.cursors[number]? = some c →
      (s.run (Move.fork number).step).session.cursors[s.cursors.size]? =
        (s.run (Move.use number .rewind).step).session.cursors[number]? ∧
      ∀ later : List Cursor.Operation,
        s.replies number (.use number .rewind :: later.map (.use number)) =
          .ok (.value (.bool true)) ::
            s.replies s.cursors.size (.fork number :: later.map (.use s.cursors.size)) := by
  have hover := over_opened settings tokens r
  have hfresh : ∀ number, (opened settings tokens r).cursorAt (Cursor.start tokens.toArray r)
      number = Cursor.start tokens.toArray r := by
    intro number
    rw [opened_eq, cursorAt]
    cases number <;> rfl
  refine ⟨?_, ?_, ?_⟩
  · intro number
    rw [replies_eq hover, hfresh, size_cursors_opened]
  · intro number c hfind
    have hcursor := cursorAt_makeAll hover number moves
    rw [hfresh, size_cursors_opened, cursorAt, hfind, Option.getD_some] at hcursor
    refine ⟨hcursor, ?_⟩
    rw [hcursor]
    exact (Cursor.sameContents_after _ _).toList
  · intro s number c hfind
    constructor
    · rw [getElem?_run_fork hfind, getElem?_run_use hfind, if_pos rfl, if_pos rfl]
      rfl
    · intro later
      rw [replies_fork hfind]
      exact replies_map_use hfind (.rewind :: later)

end

/-- The fork of a cursor skips a token and then fails, its own fork and the cursor that it comes
from go on as they would; and a cursor at its end, rewound, answers as its fork. -/
theorem replies_alone_three :
    (opened .default [⟨.lparen, .text "("⟩, ⟨.dot, .null⟩] .mapping).replies 1
        [.use 0 (.next 0), .use 1 .size, .fork 0, .use 1 (.skip 1), .fork 1, .use 2 (.next 0),
          .use 1 (.skip 0), .use 0 .current] =
      [.ok (.value .null), .error (.endOfStream (.int 2) (.int 2))] ∧
    ((opened .default [⟨.lparen, .text "("⟩, ⟨.dot, .null⟩] .mapping).makeAll
        [.use 0 (.next 0), .fork 0, .use 1 (.skip 1)]).session.cursors[0]? =
      some ((Cursor.start #[⟨.lparen, .text "("⟩, ⟨.dot, .null⟩] .mapping).movedTo 0) ∧
    (Cursor.start #[⟨.lparen, .text "("⟩, ⟨.dot, .null⟩] .mapping).movedTo 0 =
      (Cursor.start #[⟨.lparen, .text "("⟩, ⟨.dot, .null⟩] .mapping).after [.next 0] ∧
    (⟨.default, #[⟨#[⟨.dot, .null⟩], 1, 0, 1, .record⟩]⟩ : Session).replies 0
        [.use 0 .rewind, .use 0 (.peek 0)] =
      .ok (.value (.bool true)) ::
        (⟨.default, #[⟨#[⟨.dot, .null⟩], 1, 0, 1, .record⟩]⟩ : Session).replies 1
          [.fork 0, .use 1 (.peek 0)] := by
  have hfind : ((opened .default [⟨.lparen, .text "("⟩, ⟨.dot, .null⟩] .mapping).makeAll
      [.use 0 (.next 0), .fork 0, .use 1 (.skip 1)]).session.cursors[0]? =
        some ((Cursor.start #[⟨.lparen, .text "("⟩, ⟨.dot, .null⟩] .mapping).movedTo 0) := by
    rw [opened_eq]
    rfl
  exact ⟨(replies_alone _ _ _ _).1 1, hfind, ((replies_alone _ _ _ _).2.1 0 _ hfind).1,
    ((replies_alone .default [] .record []).2.2 _ 0 ⟨#[⟨.dot, .null⟩], 1, 0, 1, .record⟩ rfl).2
      [.peek 0]⟩

end Session

end SchemeLexer
