import SchemeLexer.Record
/-!
# Conversion between representations

A token is handed out in a representation and taken back from it. The representation of a sequence
is that of its first element, and it governs all the others.
-/

namespace SchemeLexer

namespace Representation

def unsupported (v : Value) : Fault :=
  .unconvertible (.text "Unsupported token representation") v

def notToken (v : Value) : Fault :=
  .unconvertible (.text "cannot convert as token") v

def encode (r : Representation) (t : Token) : Value :=
  match r with
  | .record => .token t
  | .mapping => Mapping.ofToken t
  | .jsonText => .text (t.toJson .compact)

variable [Budget]

/-- The representation that a value selects: one itself, or a name of one. -/
def coerce (v : Value) : Except Fault Representation :=
  match v with
  | .representation r => .ok r
  | .text (.plain s) =>
      match ofName? s with
      | some r => .ok r
      | none => Fault.raise (unsupported v)
  | _ => Fault.raise (unsupported v)

/-- Only the kind of a record is looked at. -/
def recordToken (v : Value) : Except Fault Record :=
  match v with
  | .record (.kind k) literal => .ok ⟨k, literal⟩
  | _ => Fault.raise (notToken v)

def decode (r : Representation) (v : Value) : Except Fault Record :=
  match r with
  | .record => recordToken v
  | .mapping => (Mapping.toToken v).map Record.ofToken
  | .jsonText => (Json.toToken v).map Record.ofToken

/-- The representation that a value is in: a record with a kind, a dictionary with both keys, or
any JSON text. -/
def detect (v : Value) : Except Fault Representation :=
  match v with
  | .record (.kind _) _ => .ok .record
  | .dict _ =>
      if Mapping.isTokenMapping v then .ok .mapping else Fault.raise (notToken v)
  | .text s => if Json.isJson s then .ok .jsonText else Fault.raise (notToken v)
  | _ => Fault.raise (notToken v)

/-- The tokens of a sequence of values, and the representation that the first of them is in. -/
def decodeAll (values : List Value) : Except Fault (List Record × Option Representation) :=
  match values with
  | [] => .ok ([], none)
  | first :: _ => do
      let r ← detect first
      let tokens ← values.mapM r.decode
      return (tokens, some r)

end Representation

namespace Value

/-- A value in a representation, as far as it is a record and its parts allow. As a record it is
handed out whatever it is. -/
def encoded (v : Value) (r : Representation) : Except Defect Value :=
  match r with
  | .record => .ok v
  | .mapping => do (← RawRecord.ofValue "kind" v).mapping
  | .jsonText => do return .text (← (← RawRecord.ofValue "kind" v).toJson .none)

theorem encoded_token (t : Token) (r : Representation) :
    (Value.token t).encoded r = .ok (r.encode t) := by
  cases r with
  | record => rfl
  | mapping => rfl
  | jsonText =>
      have hjson := RawRecord.toJson_ofToken .none t
      have hof : RawRecord.ofValue "kind" (.token t) = .ok (.ofToken t) := rfl
      simp only [encoded, hof, bind, Except.bind, hjson]
      rfl

variable [Budget]

def tokens (v : Value) : Except Fault (List Record × Option Representation) :=
  match v.elements? with
  | some values => Representation.decodeAll values
  | none => Fault.raise (.notIterable v.typeName)

def toKind (v : Value) : Except Fault Kind :=
  match v with
  | .kind k => .ok k
  | .text (.plain s) =>
      match Kind.ofName? s with
      | some k => .ok k
      | none => Fault.raise (.notKind v)
  | _ => Fault.raise (.notKind v)

end Value

end SchemeLexer
