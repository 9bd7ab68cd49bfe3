import SchemeLexer.Fault
import SchemeLexer.Value.Equality
/-!
# Token mappings

A token as a dictionary with its kind under `type` and its literal under `literal`. Other entries
are ignored.
-/

namespace SchemeLexer.Mapping

def requiredKeys : List String := ["type", "literal"]

def ofToken (t : Token) : Value :=
  .dict [(.text "type", .text t.kind.name), (.text "literal", .ofText? t.literal)]

def missingKeys (entries : List (Value × Value)) : List String :=
  requiredKeys.filter fun key => (Value.lookup? entries key).isNone

def isTokenMapping : Value → Bool
  | .dict entries => requiredKeys.all fun key => (Value.lookup? entries key).isSome
  | _ => false

/-- The kind that a value names: a kind itself, or the text of its name. -/
def kindOf [Budget] (v : Value) : Except Fault Kind :=
  match v with
  | .kind k => .ok k
  | .text (.plain s) =>
      match Kind.ofName? s with
      | some k => .ok k
      | none => Fault.raise (.unknownKind v)
  | _ => Fault.raise (.unknownKind v)

def literalOf? : Value → Option (Option Text)
  | .null => some none
  | .text s => some (some s)
  | _ => none

def notMapping (v : Value) : String :=
  "Expected a mapping, got " ++ v.typeName

def missing (keys : List String) : String :=
  "Token mapping is missing " ++ ", ".intercalate (keys.map fun key : String => Text.quoted key)

def badLiteral (literal : Value) : String :=
  "Token literal must be a string or None, got " ++ literal.typeName

/-- The token of a mapping. A value that is not a mapping is reported first, then missing keys,
then the literal, and last the kind. -/
def toToken [Budget] (v : Value) : Except Fault Token :=
  match v with
  | .dict entries =>
      match Value.lookup? entries "type", Value.lookup? entries "literal" with
      | some kind, some literal =>
          match literalOf? literal with
          | some literal => return ⟨← kindOf kind, literal⟩
          | none => Fault.raise (.invalidMapping (.text (badLiteral literal)) v)
      | _, _ => Fault.raise (.invalidMapping (.text (missing (missingKeys entries))) v)
  | _ => Fault.raise (.invalidMapping (.text (notMapping v)) v)

theorem isTokenMapping_ofToken (t : Token) : isTokenMapping (ofToken t) = true := rfl

theorem literalOf?_ofText? (literal : Option Text) :
    literalOf? (.ofText? literal) = some literal := by
  cases literal <;> rfl

theorem toToken_ofToken [Budget] (t : Token) : toToken (ofToken t) = .ok t := by
  have hkind : kindOf (.text t.kind.name) = .ok t.kind := by simp [kindOf, Kind.ofName?_name]
  have hliteral := literalOf?_ofText? t.literal
  simp only [toToken, ofToken, Value.lookup?, Value.isText, List.find?, beq_self_eq_true,
    String.reduceBEq, Option.map_some, hliteral, hkind]
  rfl

end SchemeLexer.Mapping
