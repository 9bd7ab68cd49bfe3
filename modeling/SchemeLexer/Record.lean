import SchemeLexer.Csv
import SchemeLexer.Json.Token
/-!
# Records

What has the shape of a token: something in the place of the kind and something in the place of the
literal. A record with a kind in its place is taken for a token whatever its literal is; others are
not, but they too are written as far as their parts allow.
-/

namespace SchemeLexer

/-- A token whose literal has not been looked at. -/
structure Record where
  kind : Kind
  literal : Value

namespace Record

def ofToken (t : Token) : Record := ⟨t.kind, .ofText? t.literal⟩

def value (r : Record) : Value := .record (.kind r.kind) r.literal

theorem value_ofToken (t : Token) : (ofToken t).value = .token t := rfl

end Record

structure RawRecord where
  kind : Value
  literal : Value

namespace RawRecord

def ofToken (t : Token) : RawRecord := ⟨.kind t.kind, .ofText? t.literal⟩

/-- The record that a value is, of which the part of the given name is wanted. -/
def ofValue (part : String) : Value → Except Defect RawRecord
  | .record kind literal => .ok ⟨kind, literal⟩
  | v => .error (.missingPart v.typeName part)

def mapping (r : RawRecord) : Except Defect Value := do
  return .dict [(.text "type", .text (← r.kind.kindName)), (.text "literal", r.literal)]

/-- The JSON text of a record with the given indentation. Its mapping is made before the layout is
looked at. -/
def toJson (indentation : Json.Indentation) (r : RawRecord) : Except Defect String := do
  let mapping ← r.mapping
  let layout ← indentation.layout
  return String.ofList (← Json.written layout 0 mapping)

section

variable [Budget]

def literalText (r : RawRecord) : Except Defect Text :=
  if r.literal.isNull then .ok "" else r.literal.display

def toCsv (r : RawRecord) : Except Defect Text := do
  let name ← r.kind.kindName
  let literal ← r.literalText
  return Csv.row [name, literal]

theorem toCsv_ofToken (t : Token) : (ofToken t).toCsv = .ok t.toCsv := by
  obtain ⟨k, literal⟩ := t
  cases literal <;> rfl

end

theorem mapping_ofToken (t : Token) : (ofToken t).mapping = .ok (Mapping.ofToken t) := rfl

theorem toJson_ofToken (indentation : Json.Indentation) (t : Token) :
    (ofToken t).toJson indentation = t.toIndentedJson indentation := by
  obtain ⟨k, literal⟩ := t
  rw [toJson, mapping_ofToken, Token.toIndentedJson]
  cases indentation.layout with
  | error defect => rfl
  | ok layout => cases literal <;> rfl

end RawRecord

end SchemeLexer
