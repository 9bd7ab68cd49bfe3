import Mathlib.Tactic.SplitIfs
import SchemeLexer.Session
/-!
# Settings are lexically scoped

A session has one place for its current settings, which steps overwrite and blocks put back. That
place always holds what can be read off the text of the program: the settings that were made
current last directly in the innermost block, or else those that the block began with. So options
that a cursor is built without can be written out beforehand, block by block, and a program in
which they are written out does the same under any settings.
-/

namespace SchemeLexer

/-- Settings of the types that are declared for them. -/
def Settings.Typed (settings : Settings) : Prop :=
  ∃ (r : Representation) (everywhere : Bool), settings = ⟨.representation r, .bool everywhere⟩

section

variable [Budget]

def SettingsSource.Typed (source : SettingsSource) : Prop :=
  ∃ settings : Settings, source.settings = .ok settings ∧ settings.Typed

namespace Step

/-! ## Lexical scope -/

/-- The settings that a step makes current in the block in which it stands directly. What is set
inside a block of its own does not count. -/
def assigned : Step → Option Settings
  | .setSettings source => source.settings.toOption
  | .resetSettings => some .default
  | .attempt step => step.assigned
  | .require step => step.assigned
  | _ => none

/-- The settings in scope after the steps that stand directly in a block: those made current last,
or else the block's own. -/
def inScope (own : Settings) (before : List Step) : Settings :=
  (before.filterMap assigned).getLast?.getD own

mutual

/-- A step with the options that it leaves out taken from the settings in scope. -/
def spelledOut (scope : Settings) : Step → Step
  | .build source representation legacyPadding =>
      .build source (Cursor.orElse representation scope.representation)
        (Cursor.orElse legacyPadding scope.legacyPadding)
  | .rebuild number via representation legacyPadding =>
      .rebuild number via (Cursor.orElse representation scope.representation)
        (Cursor.orElse legacyPadding scope.legacyPadding)
  | .within source steps =>
      .within source (spelledOutAll (source.settings.toOption.getD scope) [] steps)
  | .apart steps => .apart (spelledOutAll .default [] steps)
  | .attempt step => .attempt (spelledOut scope step)
  | .require step => .require (spelledOut scope step)
  | step => step

def spelledOutAll (own : Settings) (before : List Step) : List Step → List Step
  | [] => []
  | step :: rest =>
      spelledOut (inScope own before) step :: spelledOutAll own (before ++ [step]) rest

end

mutual

def Typed : Step → Prop
  | .setSettings source => source.Typed
  | .within source steps => source.Typed ∧ TypedAll steps
  | .apart steps => TypedAll steps
  | .attempt step => step.Typed
  | .require step => step.Typed
  | _ => True

def TypedAll : List Step → Prop
  | [] => True
  | step :: rest => step.Typed ∧ TypedAll rest

end

mutual

/-- A step in which all settings are exchanged for others, those of a reset included. -/
def reconfigured (other : SettingsSource → SettingsSource) : Step → Step
  | .setSettings source => .setSettings (other source)
  | .resetSettings => .setSettings (other (.fields []))
  | .within source steps => .within (other source) (reconfiguredAll other steps)
  | .apart steps => .apart (reconfiguredAll other steps)
  | .attempt step => .attempt (reconfigured other step)
  | .require step => .require (reconfigured other step)
  | step => step

def reconfiguredAll (other : SettingsSource → SettingsSource) : List Step → List Step
  | [] => []
  | step :: rest => reconfigured other step :: reconfiguredAll other rest

end

theorem inScope_nil (own : Settings) : inScope own [] = own := rfl

theorem inScope_snoc (own : Settings) (before : List Step) (step : Step) :
    inScope own (before ++ [step]) = step.assigned.getD (inScope own before) := by
  cases h : step.assigned with
  | none => simp [inScope, h]
  | some settings => simp [inScope, h]

theorem inScope_cons (own : Settings) (step : Step) (rest : List Step) :
    inScope own (step :: rest) = inScope (step.assigned.getD own) rest := by
  cases h : step.assigned with
  | none => simp [inScope, h]
  | some settings => simp [inScope, h, List.getLast?_cons]

end Step

namespace Session

open Step

/-! ## The current settings are those in scope -/

omit [Budget] in
theorem settings_append (s : Session) (parent : Option Cursor)
    (built : Except Fault (Cursor × List Event)) :
    (s.append parent built).1.settings = s.settings := by
  cases built <;> rfl

/-- Whatever a step does, and whether a fault leaves it or not, the current settings change only
by what it sets directly. -/
theorem settings_run (s : Session) :
    (step : Step) → (s.run step).session.settings = step.assigned.getD s.settings
  | .showSettings | .describeSettings | .resetSettings | .interrupt _ => by rw [run]; rfl
  | .setSettings source => by
      rw [run, setSettings, assigned]
      cases source.settings <;> rfl
  | .build source representation legacyPadding => by
      rw [run]
      exact settings_append s _ _
  | .use number operation => by
      rw [run, use]
      cases s.cursors[number]? <;> rfl
  | .fork number => by
      rw [run, fork]
      cases s.cursors[number]? <;> rfl
  | .rebuild number via representation legacyPadding => by
      rw [run, rebuild]
      cases s.cursors[number]? with
      | none => rfl
      | some c => exact settings_append s _ _
  | .within source steps => by
      rw [run]
      cases source.settings <;> rfl
  | .apart steps => by rw [run]; rfl
  | .attempt step => by
      rw [run, assigned]
      exact settings_run s step
  | .require step => by
      rw [run, assigned]
      exact settings_run s step

theorem runAll_of_escaping {s : Session} {step : Step} {fault : Fault}
    (h : (s.run step).escaping = some fault) (rest : List Step) :
    s.runAll (step :: rest) = ⟨(s.run step).session, [(s.run step).answer], some fault⟩ := by
  rw [runAll, h]

theorem runAll_of_settled {s : Session} {step : Step}
    (h : (s.run step).escaping = none) (rest : List Step) :
    s.runAll (step :: rest) =
      ⟨((s.run step).session.runAll rest).session,
        (s.run step).answer :: ((s.run step).session.runAll rest).answer,
        ((s.run step).session.runAll rest).escaping⟩ := by
  rw [runAll, h]

theorem settings_runAll {s : Session} {before : List Step}
    (h : (s.runAll before).escaping = none) :
    (s.runAll before).session.settings = inScope s.settings before := by
  induction before generalizing s with
  | nil => rw [runAll, inScope_nil]
  | cons step rest ih =>
      cases hescaping : (s.run step).escaping with
      | some fault =>
          rw [runAll_of_escaping hescaping] at h
          cases h
      | none =>
          rw [runAll_of_settled hescaping] at h ⊢
          rw [ih h, settings_run, inScope_cons]

/-! ## Options written out -/

omit [Budget] in
theorem orElse_orElse (v inSettings : Value) :
    Cursor.orElse (Cursor.orElse v inSettings) inSettings = Cursor.orElse v inSettings := by
  unfold Cursor.orElse
  split_ifs <;> rfl

theorem build_spelledOut (s : Session) (source representation legacyPadding : Value) :
    s.build source (Cursor.orElse representation s.settings.representation)
        (Cursor.orElse legacyPadding s.settings.legacyPadding) =
      s.build source representation legacyPadding := by
  simp only [build, Cursor.build, orElse_orElse]

mutual

/-- A step does the same if its options are written out from the current settings. -/
theorem run_spelledOut (s : Session) :
    (step : Step) → s.run (spelledOut s.settings step) = s.run step
  | .showSettings | .describeSettings | .resetSettings | .setSettings _ | .use _ _ | .fork _
  | .interrupt _ => by simp only [spelledOut]
  | .build source representation legacyPadding => by
      rw [spelledOut, run, run, build_spelledOut]
  | .rebuild number via representation legacyPadding => by
      rw [spelledOut, run, run, rebuild, rebuild]
      simp only [build_spelledOut]
  | .within source steps => by
      rw [spelledOut, run, run]
      cases source.settings with
      | error fault => rfl
      | ok own =>
          have hsteps := runAll_spelledOutAll ⟨own, s.cursors⟩ own [] (inScope_nil own).symm steps
          simp only [Except.toOption, Option.getD_some, hsteps]
  | .apart steps => by
      have hsteps :=
        runAll_spelledOutAll ⟨.default, s.cursors⟩ .default [] (inScope_nil _).symm steps
      rw [spelledOut, run, run, hsteps]
  | .attempt step => by rw [spelledOut, run, run, run_spelledOut s step]
  | .require step => by rw [spelledOut, run, run, run_spelledOut s step]

theorem runAll_spelledOutAll (s : Session) (own : Settings) (before : List Step)
    (hscope : s.settings = inScope own before) :
    (steps : List Step) → s.runAll (spelledOutAll own before steps) = s.runAll steps
  | [] => by rw [spelledOutAll]
  | step :: rest => by
      have hstep := run_spelledOut s step
      rw [hscope] at hstep
      rw [spelledOutAll, runAll, runAll, hstep]
      -- the settings after the step are those in scope behind it, also where a fault leaves it
      have hafter : (s.run step).session.settings = inScope own (before ++ [step]) := by
        rw [settings_run, inScope_snoc, hscope]
      simp only [runAll_spelledOutAll _ own (before ++ [step]) hafter rest]

end

end Session

/-! ## What does not depend on settings -/

namespace Answer

mutual

/-- An answer without the settings that it shows. -/
def unconfigured : Answer → Answer
  | .settings outcome _ => .settings (outcome.map fun _ => none) .default
  | .block fault answers _ => .block fault (unconfiguredAll answers) .default
  | answer => answer

def unconfiguredAll : List Answer → List Answer
  | [] => []
  | answer :: rest => unconfigured answer :: unconfiguredAll rest

end

omit [Budget] in
theorem fault?_unconfigured (answer : Answer) : answer.unconfigured.fault? = answer.fault? := by
  cases answer with
  | settings outcome current => cases outcome <;> simp [unconfigured, fault?, Except.map]
  | _ => simp [unconfigured, fault?]

end Answer

omit [Budget] in
theorem Settings.typed_default : Settings.default.Typed := ⟨.record, false, rfl⟩

theorem Settings.Typed.exists_description {settings : Settings} (h : settings.Typed) :
    ∃ text, settings.description = .ok text := by
  obtain ⟨r, everywhere, rfl⟩ := h
  obtain ⟨depth, hrepresentation⟩ := (Value.representation r).describe_eq
  obtain ⟨depth', hpadding⟩ := (Value.bool everywhere).describe_eq
  rw [description, hrepresentation, hpadding, Value.describeTo, Value.describeTo]
  exact ⟨_, rfl⟩

omit [Budget] in
theorem Settings.Typed.orElse_ne_null {settings : Settings} (h : settings.Typed) (v : Value) :
    (Cursor.orElse v settings.representation).isNull = false ∧
      (Cursor.orElse v settings.legacyPadding).isNull = false := by
  obtain ⟨r, everywhere, rfl⟩ := h
  cases hnull : v.isNull with
  | true =>
      rw [Cursor.orElse, Cursor.orElse, if_pos hnull, if_pos hnull]
      exact ⟨rfl, rfl⟩
  | false => simp [Cursor.orElse, hnull]

namespace Step

theorem typed_assigned_getD {scope : Settings} (hscope : scope.Typed) :
    (step : Step) → step.Typed → (step.assigned.getD scope).Typed
  | .setSettings source, h => by
      obtain ⟨settings, hsource, htyped⟩ := h
      rw [assigned, hsource]
      exact htyped
  | .resetSettings, _ => Settings.typed_default
  | .attempt step, h => typed_assigned_getD hscope step h
  | .require step, h => typed_assigned_getD hscope step h
  | .showSettings, _ | .describeSettings, _ | .build _ _ _, _ | .use _ _, _ | .fork _, _
  | .rebuild _ _ _ _, _ | .within _ _, _ | .apart _, _ | .interrupt _, _ => hscope

end Step

namespace Session

open Step

/-- Two sessions with the same cursors, each under settings of the declared types. -/
structure Agree (s t : Session) : Prop where
  cursors : s.cursors = t.cursors
  left : s.settings.Typed
  right : t.settings.Typed

/-- Two outcomes that differ in nothing but settings. -/
structure Outcome.Agree {α : Type} (view : α → α) (a b : Outcome α) : Prop where
  session : a.session.Agree b.session
  answer : view a.answer = view b.answer
  escaping : a.escaping = b.escaping

/-- A cursor for which all options are given is built alike under any settings. -/
theorem build_of_ne_null (s t : Session) (source : Value) {representation legacyPadding : Value}
    (hrepresentation : representation.isNull = false) (hpadding : legacyPadding.isNull = false) :
    s.build source representation legacyPadding = t.build source representation legacyPadding := by
  simp only [build, Cursor.build, Cursor.orElse, hrepresentation, hpadding]
  rfl

omit [Budget] in
theorem Agree.append {s t : Session} (h : s.Agree t) (parent : Option Cursor)
    (built : Except Fault (Cursor × List Event)) :
    Outcome.Agree Answer.unconfigured (settled (s.append parent built))
      (settled (t.append parent built)) := by
  obtain ⟨c, cursors⟩ := s
  obtain ⟨d, cursors'⟩ := t
  obtain ⟨rfl, hleft, hright⟩ := h
  cases built with
  | error fault => exact ⟨⟨rfl, hleft, hright⟩, rfl, rfl⟩
  | ok found => exact ⟨⟨rfl, hleft, hright⟩, rfl, rfl⟩

mutual

/-- A step with its options written out does the same under any settings, and if all settings that
it names are exchanged. -/
theorem run_reconfigured {other : SettingsSource → SettingsSource}
    (hother : ∀ source, (other source).Typed) {s t : Session} (h : s.Agree t) {scope : Settings}
    (hscope : scope.Typed) :
    (step : Step) → step.Typed →
      Outcome.Agree Answer.unconfigured (s.run (spelledOut scope step))
        (t.run (reconfigured other (spelledOut scope step)))
  | .showSettings, _ => by
      simp only [spelledOut, reconfigured, run]
      exact ⟨h, rfl, rfl⟩
  | .describeSettings, _ => by
      obtain ⟨text, htext⟩ := h.left.exists_description
      obtain ⟨text', htext'⟩ := h.right.exists_description
      simp only [spelledOut, reconfigured, run, htext, htext']
      exact ⟨h, rfl, rfl⟩
  | .resetSettings, _ => by
      obtain ⟨d, hd, htyped⟩ := hother (.fields [])
      simp only [spelledOut, reconfigured, run, setSettings, hd]
      exact ⟨⟨h.cursors, Settings.typed_default, htyped⟩, rfl, rfl⟩
  | .setSettings source, hstep => by
      obtain ⟨c, hc, htyped⟩ := hstep
      obtain ⟨d, hd, htyped'⟩ := hother source
      simp only [spelledOut, reconfigured, run, setSettings, hc, hd]
      exact ⟨⟨h.cursors, htyped, htyped'⟩, rfl, rfl⟩
  | .build source representation legacyPadding, _ => by
      have hbuild := build_of_ne_null s t source (hscope.orElse_ne_null representation).1
        (hscope.orElse_ne_null legacyPadding).2
      simp only [spelledOut, reconfigured, run, hbuild]
      exact h.append none _
  | .use number operation, _ => by
      simp only [spelledOut, reconfigured, run, use, ← h.cursors]
      cases s.cursors[number]? with
      | none => exact ⟨h, rfl, rfl⟩
      | some c => exact ⟨⟨rfl, h.left, h.right⟩, rfl, rfl⟩
  | .fork number, _ => by
      simp only [spelledOut, reconfigured, run, fork, ← h.cursors]
      cases s.cursors[number]? with
      | none => exact ⟨h, rfl, rfl⟩
      | some c => exact h.append (some c) _
  | .rebuild number via representation legacyPadding, _ => by
      simp only [spelledOut, reconfigured, run, rebuild, ← h.cursors]
      cases s.cursors[number]? with
      | none => exact ⟨h, rfl, rfl⟩
      | some c =>
          have hbuild (v : Value) := build_of_ne_null s t v
            (hscope.orElse_ne_null representation).1 (hscope.orElse_ne_null legacyPadding).2
          simp only [hbuild]
          exact h.append (some c) _
  | .within source steps, hstep => by
      obtain ⟨⟨c, hc, htyped⟩, hsteps⟩ := hstep
      obtain ⟨d, hd, htyped'⟩ := hother source
      have hinner : Agree ⟨c, s.cursors⟩ ⟨d, t.cursors⟩ := ⟨h.cursors, htyped, htyped'⟩
      have hall := runAll_reconfigured hother hinner c [] htyped steps hsteps
      simp only [spelledOut, reconfigured, run, hc, hd, Except.toOption, Option.getD_some]
      refine ⟨⟨hall.session.cursors, h.left, h.right⟩, ?_, hall.escaping⟩
      simp only [Answer.unconfigured, hall.answer, hall.escaping]
  | .apart steps, hstep => by
      have hinner : Agree ⟨.default, s.cursors⟩ ⟨.default, t.cursors⟩ :=
        ⟨h.cursors, Settings.typed_default, Settings.typed_default⟩
      have hall := runAll_reconfigured hother hinner .default [] Settings.typed_default steps hstep
      simp only [spelledOut, reconfigured, run]
      refine ⟨⟨hall.session.cursors, h.left, h.right⟩, ?_, rfl⟩
      simp only [Answer.unconfigured, hall.answer, hall.escaping]
  | .attempt step, hstep => by
      have hinner := run_reconfigured hother h hscope step hstep
      simp only [spelledOut, reconfigured, run]
      exact ⟨hinner.session, hinner.answer, rfl⟩
  | .require step, hstep => by
      have hinner := run_reconfigured hother h hscope step hstep
      simp only [spelledOut, reconfigured, run]
      refine ⟨hinner.session, hinner.answer, ?_⟩
      rw [← Answer.fault?_unconfigured, hinner.answer, Answer.fault?_unconfigured]
  | .interrupt _, _ => by
      simp only [spelledOut, reconfigured, run]
      exact ⟨h, rfl, rfl⟩

theorem runAll_reconfigured {other : SettingsSource → SettingsSource}
    (hother : ∀ source, (other source).Typed) {s t : Session} (h : s.Agree t) (own : Settings)
    (before : List Step) (hscope : (inScope own before).Typed) :
    (steps : List Step) → TypedAll steps →
      Outcome.Agree Answer.unconfiguredAll (s.runAll (spelledOutAll own before steps))
        (t.runAll (reconfiguredAll other (spelledOutAll own before steps)))
  | [], _ => by
      simp only [spelledOutAll, reconfiguredAll, runAll]
      exact ⟨h, rfl, rfl⟩
  | step :: rest, hsteps => by
      have hfirst := run_reconfigured hother h hscope step hsteps.1
      have hafter : (inScope own (before ++ [step])).Typed := by
        rw [inScope_snoc]
        exact typed_assigned_getD hscope step hsteps.1
      have hrest := runAll_reconfigured hother hfirst.session own _ hafter rest hsteps.2
      simp only [spelledOutAll, reconfiguredAll]
      cases hescaping : (s.run (spelledOut (inScope own before) step)).escaping with
      | some fault =>
          rw [runAll_of_escaping hescaping, runAll_of_escaping (hfirst.escaping ▸ hescaping)]
          exact ⟨hfirst.session, by simp only [Answer.unconfiguredAll, hfirst.answer], rfl⟩
      | none =>
          rw [runAll_of_settled hescaping, runAll_of_settled (hfirst.escaping ▸ hescaping)]
          refine ⟨hrest.session, ?_, hrest.escaping⟩
          simp only [Answer.unconfiguredAll, hfirst.answer, hrest.answer]

end

/-- After a block the settings from before it are current again, and the fault that leaves its steps
leaves the block too. At every point the current settings are those in scope, so that a program does
the same if the options that it leaves out are written out. It then builds the same cursors and
gives the same answers under any settings, whatever settings are made current in it. -/
theorem settings_lexically_scoped :
    (∀ (s : Session) (source : SettingsSource) (steps : List Step),
      (s.run (.within source steps)).session.settings = s.settings ∧
      ∀ own : Settings, source.settings = .ok own →
        (s.run (.within source steps)).escaping = (runAll ⟨own, s.cursors⟩ steps).escaping) ∧
    (∀ (s : Session) (before : List Step), (s.runAll before).escaping = none →
      (s.runAll before).session.settings = inScope s.settings before) ∧
    (∀ (s : Session) (steps : List Step),
      s.runAll (spelledOutAll s.settings [] steps) = s.runAll steps) ∧
    ∀ (s t : Session) (steps : List Step) (other : SettingsSource → SettingsSource),
      s.Agree t → TypedAll steps → (∀ source, (other source).Typed) →
        Outcome.Agree Answer.unconfiguredAll (s.runAll steps)
          (t.runAll (reconfiguredAll other (spelledOutAll s.settings [] steps))) := by
  refine ⟨?_, ?_, ?_, ?_⟩
  · intro s source steps
    refine ⟨settings_run s (.within source steps), ?_⟩
    intro own hown
    simp only [run, hown]
  · intro s before h
    exact settings_runAll h
  · intro s steps
    exact runAll_spelledOutAll s s.settings [] (inScope_nil _).symm steps
  · intro s t steps other h hsteps hother
    have hsame := runAll_spelledOutAll s s.settings [] (inScope_nil _).symm steps
    rw [← hsame]
    exact runAll_reconfigured hother h s.settings [] h.left steps hsteps

end Session

end

namespace Session

open Step

theorem settings_lexically_scoped_nested :
    let padded : SettingsSource := .fields [("legacy_padding", .bool true)]
    let mapped : SettingsSource := .fields [("representation", .representation .mapping)]
    let boom : Fault := .foreign "RuntimeError" "boom"
    let inner := Step.within padded [.setSettings mapped, .interrupt boom]
    let steps : List Step := [.within mapped [.attempt inner, .build (.text "a") .null .null]]
    (start.run inner).session.settings = .default ∧
      (start.run inner).escaping = some boom ∧
      start.runAll [.within mapped [.attempt inner, .build (.text "a") (.representation .mapping)
        (.bool false)]] = start.runAll steps ∧
      (start.runAll steps).session.cursors =
        (runAll ⟨⟨.representation .jsonText, .bool true⟩, #[]⟩
          [.within padded [.attempt (.within padded [.setSettings padded, .interrupt boom]),
            .build (.text "a") (.representation .mapping) (.bool false)]]).session.cursors := by
  intro padded mapped boom inner steps
  obtain ⟨hblock, -, hspelled, hreconfigured⟩ := settings_lexically_scoped
  have hpadded : padded.Typed := ⟨⟨.representation .record, .bool true⟩, rfl, .record, true, rfl⟩
  have hmapped : mapped.Typed :=
    ⟨⟨.representation .mapping, .bool false⟩, rfl, .mapping, false, rfl⟩
  obtain ⟨hrestored, hescaping⟩ := hblock start padded [.setSettings mapped, .interrupt boom]
  refine ⟨hrestored, hescaping _ rfl, hspelled start steps, ?_⟩
  have hagree : start.Agree ⟨⟨.representation .jsonText, .bool true⟩, #[]⟩ :=
    ⟨rfl, Settings.typed_default, .jsonText, true, rfl⟩
  have htyped : TypedAll steps :=
    ⟨⟨hmapped, ⟨hpadded, hmapped, trivial, trivial⟩, trivial, trivial⟩, trivial⟩
  exact (hreconfigured start _ steps (fun _ => padded) hagree htyped
    fun _ => hpadded).session.cursors

end Session

end SchemeLexer
