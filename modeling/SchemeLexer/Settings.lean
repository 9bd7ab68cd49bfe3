import SchemeLexer.Conversion
/-!
# Settings

The options of a lexer that are not given when it is built: the representation of its tokens, and
whether delimiters are padded inside string literals too. Settings may hold any values; they are
checked where they are used.
-/

namespace SchemeLexer

structure Settings where
  representation : Value
  legacyPadding : Value

def Padding.ofValue (v : Value) : Padding :=
  if v.truthy then .everywhere else .outsideStrings

namespace Settings

def default : Settings := ⟨.representation .record, .bool false⟩

variable [Budget]

/-- Settings from a dictionary. Entries that are no settings are ignored, and a representation is
looked up. -/
def ofValue (v : Value) : Except Fault Settings :=
  match v with
  | .dict entries => do
      let representation ←
        match Value.lookup? entries "representation" with
        | some v => (Representation.coerce v).map Value.representation
        | none => pure default.representation
      let legacyPadding := (Value.lookup? entries "legacy_padding").getD default.legacyPadding
      return ⟨representation, legacyPadding⟩
  | _ => Fault.raise (.defective (.missingPart v.typeName "items"))

def ofFields (fields : List (String × Value)) : Except Fault Settings :=
  match fields.find? fun (name, _) => name ≠ "representation" && name ≠ "legacy_padding" with
  | some (name, _) => Fault.raise (.unknownSetting name)
  | none =>
      .ok ⟨(fields.lookup "representation").getD default.representation,
        (fields.lookup "legacy_padding").getD default.legacyPadding⟩

def isDefault (s : Settings) : Bool :=
  s.representation.same default.representation && s.legacyPadding.same default.legacyPadding

def description (s : Settings) : Except Fault String :=
  let text : Except Defect String := do
    let representation ← s.representation.describe
    let legacyPadding ← s.legacyPadding.describe
    return "LexConfig(representation=" ++ representation ++ ", legacy_padding=" ++ legacyPadding
      ++ ")"
  text.mapError Fault.defective

end Settings

/-- Where settings come from: a dictionary, whose entries are checked, or named values, which are
taken as they are. -/
inductive SettingsSource where
  | dictionary (v : Value)
  | fields (named : List (String × Value))

def SettingsSource.settings [Budget] : SettingsSource → Except Fault Settings
  | .dictionary v => Settings.ofValue v
  | .fields named => Settings.ofFields named

end SchemeLexer
