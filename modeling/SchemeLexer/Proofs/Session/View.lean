import Mathlib.Data.List.Forall2
import Mathlib.Tactic.SplitIfs
import SchemeLexer.Proofs.Session.Moves
/-!
# Representations are views

Two sessions over the same tokens that differ in the representation alone are moved in step. Each
cursor of the one is that of the other under another representation, whatever is done with them;
the faults are the same, and what is handed out stands for the same tokens.
-/

namespace SchemeLexer

/-! ## Values that stand for the same tokens -/

namespace Representation

variable [Budget]

/-- Values in two representations that stand for one token. -/
def SameToken (r r' : Representation) (v v' : Value) : Prop :=
  ∃ t, r.decode v = .ok t ∧ r'.decode v' = .ok t

/-- Both values are null, or neither is and they stand for one token. -/
def SameOptional (r r' : Representation) (v v' : Value) : Prop :=
  (v = .null ↔ v' = .null) ∧ (v ≠ .null → SameToken r r' v v')

theorem sameToken_encode (r r' : Representation) {t : Token} (h : t.Unpaired) :
    SameToken r r' (r.encode t) (r'.encode t) :=
  ⟨.ofToken t, decode_encode r h, decode_encode r' h⟩

theorem sameOptional_encode (r r' : Representation) {t : Token} (h : t.Unpaired) :
    SameOptional r r' (r.encode t) (r'.encode t) :=
  ⟨iff_of_false (encode_ne_null r t) (encode_ne_null r' t), fun _ => sameToken_encode r r' h⟩

theorem sameOptional_null (r r' : Representation) : SameOptional r r' .null .null :=
  ⟨Iff.rfl, fun h => absurd rfl h⟩

end Representation

open SchemeLexer.Representation

namespace Cursor

/-! ## One cursor -/

variable [Budget]

def positions (c : Cursor) : Nat × Nat := (c.current, c.next)

def under (r : Representation) (c : Cursor) : Cursor := { c with representation := r }

/-- Answers to an operation in two representations, where it succeeds. Tokens may look different
but are the same; a description differs in the name of the representation; and everything else is
the same. -/
def SameAnswer (r r' : Representation) : Operation → Value → Value → Prop
  | .next _, v, v' => SameOptional r r' v v'
  | .peek _, v, v' => SameOptional r r' v v'
  | .current, v, v' => SameOptional r r' v v'
  | .list, v, v' =>
      ∃ vs vs', v = .list vs ∧ v' = .list vs' ∧ List.Forall₂ (SameToken r r') vs vs'
  | .describe, v, v' =>
      ∃ text : String, v = .text (.plain (text ++ Text.quoted r.name ++ ")")) ∧
        v' = .text (.plain (text ++ Text.quoted r'.name ++ ")"))
  | _, v, v' => v = v'

/-- Outcomes of an operation in two representations: the same fault, or answers that are the same
but for the representation. -/
inductive SameOutcome (r r' : Representation) (operation : Operation) :
    Except Fault Value → Except Fault Value → Prop
  | fault (fault : Fault) : SameOutcome r r' operation (.error fault) (.error fault)
  | answer {v v' : Value} (h : SameAnswer r r' operation v v') :
      SameOutcome r r' operation (.ok v) (.ok v')

omit [Budget] in
@[simp] theorem under_size (r : Representation) (c : Cursor) : (c.under r).size = c.size := rfl

omit [Budget] in
@[simp] theorem under_current (r : Representation) (c : Cursor) :
    (c.under r).current = c.current := rfl

omit [Budget] in
@[simp] theorem under_next (r : Representation) (c : Cursor) : (c.under r).next = c.next := rfl

theorem advance_under (r : Representation) (c : Cursor) (offset : Int) :
    (c.under r).advance offset = (c.advance offset).map (under r) := by
  unfold advance under
  dsimp only
  split_ifs <;> rfl

section

variable {c : Cursor} {tokens : List Token}

omit [Budget] in
theorem Over.under (h : c.Over tokens) (r : Representation) : (c.under r).Over tokens :=
  ⟨h.tokens_eq, h.size_eq⟩

/-- A token is found in both or in neither, for an operation that answers with it. -/
theorem Over.sameOutcome_tokenAt (h : c.Over tokens) (htokens : ∀ t ∈ tokens, t.Unpaired)
    (r' : Representation) (operation : Operation)
    (hanswer : ∀ t : Token, t.Unpaired →
      SameAnswer c.representation r' operation (c.representation.encode t) (r'.encode t))
    (position : Nat) :
    SameOutcome c.representation r' operation (c.tokenAt position)
      ((c.under r').tokenAt position) := by
  by_cases hposition : position < tokens.length
  · rw [h.tokenAt hposition, (h.under r').tokenAt hposition]
    exact .answer (hanswer _ (htokens _ (List.getElem_mem hposition)))
  · have hnone : c.tokens[position]? = none := by
      simp [h.tokens_eq, Nat.not_lt.1 hposition]
    have htokenAt (d : Cursor) (hd : d.tokens = c.tokens) :
        d.tokenAt position = .error (.defective .outOfRange) := by
      rw [Cursor.tokenAt, hd, hnone]
    rw [htokenAt c rfl, htokenAt (c.under r') rfl]
    exact .fault _

theorem Over.sameOutcome_lookahead (h : c.Over tokens) (htokens : ∀ t ∈ tokens, t.Unpaired)
    (r' : Representation) (offset : Int) :
    SameOutcome c.representation r' (.peek offset) (c.lookahead offset)
      ((c.under r').lookahead offset) := by
  unfold lookahead
  rw [under_size, under_next]
  dsimp only
  split_ifs
  · exact .fault _
  · exact .fault _
  · refine .answer ?_
    exact sameOptional_null c.representation r'
  · refine h.sameOutcome_tokenAt htokens r' (.peek offset) ?_ _
    exact fun _ => sameOptional_encode c.representation r'

theorem Over.sameOutcome_currentToken (h : c.Over tokens) (htokens : ∀ t ∈ tokens, t.Unpaired)
    (r' : Representation) :
    SameOutcome c.representation r' .current c.currentToken (c.under r').currentToken := by
  unfold currentToken
  rw [under_size, under_current]
  split_ifs
  · refine .answer ?_
    exact sameOptional_null c.representation r'
  · refine h.sameOutcome_tokenAt htokens r' .current ?_ _
    exact fun _ => sameOptional_encode c.representation r'

theorem Over.sameOutcome_toList (h : c.Over tokens) (htokens : ∀ t ∈ tokens, t.Unpaired)
    (r' : Representation) :
    SameOutcome c.representation r' .list (c.toList.map Value.list)
      ((c.under r').toList.map Value.list) := by
  rw [toList_of_tokens h.tokens_eq, toList_of_tokens (h.under r').tokens_eq]
  refine .answer ⟨_, _, rfl, rfl, ?_⟩
  rw [List.forall₂_map_left_iff, List.forall₂_map_right_iff]
  exact List.forall₂_same.2 fun t ht => sameToken_encode c.representation r' (htokens t ht)

end

theorem Over.perform_under {c : Cursor} {tokens : List Token} (h : c.Over tokens)
    (htokens : ∀ t ∈ tokens, t.Unpaired) (r' : Representation) (operation : Operation) :
    ((c.under r').perform operation).2 = (c.perform operation).2.under r' ∧
      SameOutcome c.representation r' operation (c.perform operation).1
        ((c.under r').perform operation).1 := by
  -- Positions and faults come from the number of tokens alone; the representation shows only in
  -- what is handed out, and there each operation encodes a token once.
  cases operation with
  | next offset =>
      rw [Cursor.perform, Cursor.perform, advance_under]
      rcases advance_cases c offset with ⟨fault, hadvance, -⟩ | ⟨k, hk, -, hadvance⟩
      · rw [hadvance]
        exact ⟨rfl, .fault fault⟩
      · rw [hadvance]
        refine ⟨rfl, h.sameOutcome_tokenAt htokens r' (.next offset) ?_ _⟩
        exact fun _ => sameOptional_encode c.representation r'
  | skip offset =>
      rw [Cursor.perform, Cursor.perform, advance_under]
      rcases advance_cases c offset with ⟨fault, hadvance, -⟩ | ⟨k, hk, -, hadvance⟩
      · rw [hadvance]
        exact ⟨rfl, .fault fault⟩
      · rw [hadvance]
        exact ⟨rfl, .answer rfl⟩
  | peek offset => exact ⟨rfl, h.sameOutcome_lookahead htokens r' offset⟩
  | current => exact ⟨rfl, h.sameOutcome_currentToken htokens r'⟩
  | rewind => exact ⟨rfl, .answer rfl⟩
  | list => exact ⟨rfl, h.sameOutcome_toList htokens r'⟩
  | tokens => exact ⟨rfl, .answer rfl⟩
  | size => exact ⟨rfl, .answer rfl⟩
  | describe => exact ⟨rfl, .answer ⟨_, rfl, rfl⟩⟩

end Cursor

/-! ## Sessions -/

namespace Session

section

variable [Budget]

/-- Answers to a move in two sessions that differ in the representation of their cursors alone,
of which each has `count`. -/
inductive Alike (r r' : Representation) (count : Nat) : Move → Answer → Answer → Prop
  | absent {move : Move} (h : count ≤ move.number) : Alike r r' count move .noCursor .noCursor
  | used {number : Nat} {operation : Cursor.Operation} {outcome outcome' : Except Fault Value}
      {c c' : Cursor} {noted : List Event} (h : number < count)
      (houtcome : Cursor.SameOutcome r r' operation outcome outcome')
      (hpositions : c.positions = c'.positions) :
      Alike r r' count (.use number operation)
        (.cursor (outcome.map Reply.value) (some c) noted)
        (.cursor (outcome'.map Reply.value) (some c') noted)
  | forked {number : Nat} {c c' : Cursor} (h : number < count)
      (hpositions : c.positions = c'.positions) :
      Alike r r' count (.fork number) (.cursor (.ok (.number count)) (some c) [])
        (.cursor (.ok (.number count)) (some c') [])

inductive AlikeAll (r r' : Representation) : Nat → List Move → List Answer → List Answer → Prop
  | nil {count : Nat} : AlikeAll r r' count [] [] []
  | cons {count : Nat} {move : Move} {moves : List Move} {answer answer' : Answer}
      {answers answers' : List Answer} (h : Alike r r' count move answer answer')
      (hrest : AlikeAll r r' (move.count count) moves answers answers') :
      AlikeAll r r' count (move :: moves) (answer :: answers) (answer' :: answers')

def under (r : Representation) (s : Session) : Session :=
  ⟨s.settings, s.cursors.map (Cursor.under r)⟩

theorem opened_under (settings : Settings) (tokens : List Record) (r r' : Representation) :
    (opened settings tokens r).under r' = opened settings tokens r' := by
  rw [opened_eq, opened_eq, under, List.map_toArray]
  rfl

omit [Budget] in
theorem getElem?_under {s : Session} {number : Nat} {c : Cursor} (r : Representation)
    (h : s.cursors[number]? = some c) : (s.under r).cursors[number]? = some (c.under r) := by
  rw [under, Array.getElem?_map, h]
  rfl

/-- A move keeps the two sessions in step. -/
theorem run_under {tokens : List Token} (htokens : ∀ t ∈ tokens, t.Unpaired)
    {r : Representation} {s : Session} (h : s.Over (tokens.map .ofToken).toArray r)
    (r' : Representation) (move : Move) :
    ((s.under r').run move.step).session = (s.run move.step).session.under r' ∧
      Alike r r' s.cursors.size move (s.run move.step).answer
        ((s.under r').run move.step).answer := by
  have hsize : (s.under r').cursors.size = s.cursors.size := Array.size_map
  rcases s.move_cases move with habsent | ⟨number, c, hfind, ⟨operation, rfl⟩ | rfl⟩
  · rw [run_of_size_le habsent, run_of_size_le (by rwa [hsize])]
    exact ⟨rfl, .absent habsent⟩
  · have hcontents := h c (Array.mem_of_getElem? hfind)
    have hover : c.Over tokens := (Cursor.ofTokens_over tokens r).of_sameContents hcontents
    obtain ⟨hmoved, houtcome⟩ := hover.perform_under htokens r' operation
    have hrepresentation : c.representation = r := hcontents.2.2
    rw [hrepresentation] at houtcome
    rw [run_use_of_some hfind, run_use_of_some (getElem?_under r' hfind), hmoved]
    refine ⟨?_, .used (lt_size_of_getElem? hfind) houtcome rfl⟩
    rw [under, under, Array.map_setIfInBounds]
  · rw [run_fork_of_some hfind, run_fork_of_some (getElem?_under r' hfind), hsize]
    refine ⟨?_, .forked (lt_size_of_getElem? hfind) rfl⟩
    rw [under, under, Array.map_push]
    rfl

theorem makeAll_under {tokens : List Token} (htokens : ∀ t ∈ tokens, t.Unpaired)
    {r : Representation} {s : Session} (h : s.Over (tokens.map .ofToken).toArray r)
    (r' : Representation) (moves : List Move) :
    ((s.under r').makeAll moves).session = (s.makeAll moves).session.under r' ∧
      AlikeAll r r' s.cursors.size moves (s.makeAll moves).answer
        ((s.under r').makeAll moves).answer := by
  induction moves generalizing s with
  | nil => exact ⟨rfl, .nil⟩
  | cons move moves ih =>
      obtain ⟨hsession, halike⟩ := run_under htokens h r' move
      obtain ⟨hsession', hrest⟩ := ih (h.run move)
      rw [size_cursors_run] at hrest
      rw [makeAll_cons, makeAll_cons, hsession]
      exact ⟨hsession', .cons halike hrest⟩

/-- Cursors over the same tokens in two representations, and the forks of these, are moved alike by
the same moves: each answer is the same but for the representation, and in the end, hence after
each move, all cursors have the same positions. -/
theorem answers_alike (settings : Settings) (tokens : List Token)
    (htokens : ∀ t ∈ tokens, t.Unpaired) (r r' : Representation) (moves : List Move) :
    AlikeAll r r' 1 moves ((opened settings (tokens.map .ofToken) r).makeAll moves).answer
        ((opened settings (tokens.map .ofToken) r').makeAll moves).answer ∧
      ((opened settings (tokens.map .ofToken) r).makeAll moves).session.cursors.map
          Cursor.positions =
        ((opened settings (tokens.map .ofToken) r').makeAll moves).session.cursors.map
          Cursor.positions := by
  obtain ⟨hsession, halike⟩ :=
    makeAll_under htokens (over_opened settings (tokens.map .ofToken) r) r' moves
  rw [opened_under] at hsession halike
  rw [size_cursors_opened] at halike
  refine ⟨halike, ?_⟩
  rw [hsession, under, Array.map_map]
  rfl

end

/-- A lone surrogate and a missing literal, read as records and as JSON text. -/
theorem answers_alike_mixed :
    let lone : Text := .wide ⟨[.surrogate 0xde00 rfl, .char 'x'], rfl⟩
    let tokens : List Token := [⟨.illegal, some lone⟩, ⟨.dot, none⟩]
    let moves : List Move := [.use 0 (.next 0), .fork 0, .use 1 .list, .use 0 (.skip 1)]
    AlikeAll .record .jsonText 1 moves
      ((opened .default (tokens.map .ofToken) .record).makeAll moves).answer
      ((opened .default (tokens.map .ofToken) .jsonText).makeAll moves).answer := by
  intro lone tokens moves
  have htokens : ∀ t ∈ tokens, t.Unpaired := by
    refine List.forall_mem_cons.2 ⟨?_, List.forall_mem_singleton.2 fun s hs => nomatch hs⟩
    rintro s ⟨⟩
    decide
  exact (answers_alike .default tokens htokens .record .jsonText moves).1

/-- The literal of a token is a pair of surrogates, two code points, and its JSON text is that of
the token whose literal is the one character of the pair; so the text is read back as that token,
while the record stands for itself. A literal that is a number fares no better: a cursor makes a
mapping of it that cannot be read back. -/
theorem views_of_other_literals :
    (let pair : Text := .wide ⟨[.surrogate 0xd83d rfl, .surrogate 0xde00 rfl], rfl⟩
      let t : Token := ⟨.illegal, some pair⟩
      let joined : Token := ⟨.illegal, some "😀"⟩
      let record := Value.token t
      let text := Value.text (t.toJson .compact)
      ((Cursor.ofTokens [t] .record).perform (.next 0)).1 = .ok record ∧
        ((Cursor.ofTokens [t] .jsonText).perform (.next 0)).1 = .ok text ∧
        decode .record record = .ok (.ofToken t) ∧
        decode .jsonText text = .ok (.ofToken joined) ∧
        ¬SameToken .record .jsonText record text) ∧
    let number : Record := ⟨.dot, .int 5⟩
    let view : Value := .dict [(.text "type", .text "dot"), (.text "literal", .int 5)]
    ((Cursor.start #[number] .record).perform (.next 0)).1 = .ok number.value ∧
      decode .record number.value = .ok number ∧
      ((Cursor.start #[number] .mapping).perform (.next 0)).1 = .ok view ∧
      decode .mapping view = .error (.invalidMapping
        (.text "Token literal must be a string or None, got int") view) := by
  refine ⟨?_, rfl, rfl, rfl, rfl⟩
  intro pair t joined record text
  have htext : text = encode .jsonText joined := rfl
  have hdecode : decode .jsonText text = .ok (.ofToken joined) := by
    rw [htext]
    exact decode_encode .jsonText (Token.unpaired_plain .illegal (some "😀"))
  refine ⟨rfl, rfl, rfl, hdecode, ?_⟩
  rintro ⟨found, hrecord, hjson⟩
  have hjoined : found = .ofToken joined := Except.ok.inj (hjson.symm.trans hdecode)
  have hsame : Record.ofToken t = .ofToken joined := (Except.ok.inj hrecord).trans hjoined
  have hliteral : Text.wide _ = .plain "😀" := Value.text.inj (congrArg Record.literal hsame)
  cases hliteral

end Session

end SchemeLexer
