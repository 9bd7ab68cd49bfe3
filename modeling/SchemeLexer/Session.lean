import SchemeLexer.Cursor
/-!
# Sessions

A session has current settings and a growing list of cursors. Its steps change the settings, build
cursors and use them; a step that fails says so in its answer and changes nothing. A block of
steps runs under settings of its own, and the settings from before the block are current again
after it, whatever happened inside. An interruption leaves all blocks around it, up to the step
that attempts them, and so does the fault of a step that is required to succeed.
-/

namespace SchemeLexer

/-- From what a cursor is built anew: the values that another one hands out, or its tokens. -/
inductive Via where
  | values
  | records
  deriving DecidableEq, Repr

def Via.source (c : Cursor) : Via → Except Fault Value
  | .values => c.toList.map Value.list
  | .records => .ok (.tuple (c.tokens.toList.map Record.value))

/-- A step of a session. Steps `within` a block run under its settings, and steps that run `apart`
begin under the default ones and let no fault out; `attempt` lets no fault out either, while
`require` lets out the one that its step answers with. -/
inductive Step where
  | showSettings
  | describeSettings
  | resetSettings
  | setSettings (source : SettingsSource)
  | build (source representation legacyPadding : Value)
  | use (number : Nat) (operation : Cursor.Operation)
  | fork (number : Nat)
  | rebuild (number : Nat) (via : Via) (representation legacyPadding : Value)
  | within (source : SettingsSource) (steps : List Step)
  | apart (steps : List Step)
  | attempt (step : Step)
  | require (step : Step)
  | interrupt (fault : Fault)

inductive Reply where
  | value (v : Value)
  | number (n : Nat)

/-- The answer to a step, with the settings or the cursor after it. A block answers with the answers
to its steps and the fault that left it. -/
inductive Answer where
  | settings (outcome : Except Fault (Option String)) (current : Settings)
  | cursor (outcome : Except Fault Reply) (cursor : Option Cursor) (noted : List Event)
  | noCursor
  | block (fault : Option Fault) (answers : List Answer) (current : Settings)
  | interruption (fault : Fault)

def Answer.fault? : Answer → Option Fault
  | .settings (.error fault) _ => some fault
  | .cursor (.error fault) _ _ => some fault
  | .block fault _ _ => fault
  | .interruption fault => some fault
  | _ => none

structure Session where
  settings : Settings
  cursors : Array Cursor

namespace Session

def start : Session := ⟨.default, #[]⟩

/-- Adds a new cursor, or reports why there is none together with the cursor that it was to come
from. -/
def append (s : Session) (parent : Option Cursor) :
    Except Fault (Cursor × List Event) → Session × Answer
  | .ok (c, noted) =>
      (⟨s.settings, s.cursors.push c⟩, .cursor (.ok (.number s.cursors.size)) (some c) noted)
  | .error fault => (s, .cursor (.error fault) parent [])

variable [Budget]

def build (s : Session) (source representation legacyPadding : Value) :
    Except Fault (Cursor × List Event) :=
  (Cursor.build s.settings source representation legacyPadding).map fun (c, event) => (c, [event])

def use (s : Session) (number : Nat) (operation : Cursor.Operation) : Session × Answer :=
  match s.cursors[number]? with
  | none => (s, .noCursor)
  | some c =>
      let (outcome, moved) := c.perform operation
      (⟨s.settings, s.cursors.setIfInBounds number moved⟩,
        .cursor (outcome.map Reply.value) (some moved) (c.noted operation))

def fork (s : Session) (number : Nat) : Session × Answer :=
  match s.cursors[number]? with
  | none => (s, .noCursor)
  | some c => s.append (some c) (.ok (c.fork, []))

def rebuild (s : Session) (number : Nat) (via : Via) (representation legacyPadding : Value) :
    Session × Answer :=
  match s.cursors[number]? with
  | none => (s, .noCursor)
  | some c =>
      s.append (some c) do
        let source ← via.source c
        s.build source representation legacyPadding

def setSettings (s : Session) (source : SettingsSource) : Session × Answer :=
  match source.settings with
  | .ok settings => (⟨settings, s.cursors⟩, .settings (.ok none) settings)
  | .error fault => (s, .settings (.error fault) s.settings)

/-- What a step leaves behind, and the fault that leaves it. -/
structure Outcome (α : Type) where
  session : Session
  answer : α
  escaping : Option Fault

def settled : Session × Answer → Outcome Answer
  | (s, answer) => ⟨s, answer, none⟩

mutual

def run (s : Session) : Step → Outcome Answer
  | .showSettings => settled (s, .settings (.ok none) s.settings)
  | .describeSettings => settled (s, .settings (s.settings.description.map some) s.settings)
  | .resetSettings => settled (⟨.default, s.cursors⟩, .settings (.ok none) .default)
  | .setSettings source => settled (s.setSettings source)
  | .build source representation legacyPadding =>
      settled (s.append none (s.build source representation legacyPadding))
  | .use number operation => settled (s.use number operation)
  | .fork number => settled (s.fork number)
  | .rebuild number via representation legacyPadding =>
      settled (s.rebuild number via representation legacyPadding)
  | .within source steps =>
      match source.settings with
      | .error fault => ⟨s, .block (some fault) [] s.settings, some fault⟩
      | .ok settings =>
          let inner := runAll ⟨settings, s.cursors⟩ steps
          -- cursors built inside stay, settings made current inside do not
          ⟨⟨s.settings, inner.session.cursors⟩, .block inner.escaping inner.answer s.settings,
            inner.escaping⟩
  | .apart steps =>
      let inner := runAll ⟨.default, s.cursors⟩ steps
      ⟨⟨s.settings, inner.session.cursors⟩, .block inner.escaping inner.answer s.settings, none⟩
  | .attempt step =>
      let inner := run s step
      ⟨inner.session, inner.answer, none⟩
  | .require step =>
      let inner := run s step
      ⟨inner.session, inner.answer, inner.answer.fault?⟩
  | .interrupt fault => ⟨s, .interruption fault, some fault⟩

/-- Takes steps one after the other, up to one that lets a fault out. -/
def runAll (s : Session) : List Step → Outcome (List Answer)
  | [] => ⟨s, [], none⟩
  | step :: rest =>
      let first := run s step
      match first.escaping with
      | some fault => ⟨first.session, [first.answer], some fault⟩
      | none =>
          let others := runAll first.session rest
          ⟨others.session, first.answer :: others.answer, others.escaping⟩

end

end Session

end SchemeLexer
