import SchemeLexer.Decimal.Notation
import SchemeLexer.Text.Quoted
import SchemeLexer.Value.Basic
import SchemeLexer.Value.Defect
/-!
# Descriptions of values

The text by which messages show a value. Some values have none: an integer of too many digits, a
value nested too deeply, and a record whose parts are not those of a token.
-/

namespace SchemeLexer

/-- The number of levels to which nested values are followed, which is at least one. It depends on
how much of the stack is in use. -/
class Budget where
  depth : Nat
  pos : 0 < depth

instance Budget.standard : Budget := ⟨1000, by decide⟩

def literalLimit : Nat := 20

def describeInt (n : Int) : Except Defect String :=
  let digits := Nat.toDigits 10 n.natAbs
  if digitLimit < digits.length then .error .hugeInteger
  else .ok (String.ofList (if n < 0 then '-' :: digits else digits))

/-- A text of more than `limit` code points cut to three less, with dots in their place. -/
def abridged (limit : Nat) (s : Text) : Text :=
  if limit < s.length then
    .ofPoints (s.points.take (limit - 3) ++ [.char '.', .char '.', .char '.'])
  else s

def recordDescription (kindName literal : String) : String :=
  "Token(" ++ kindName ++ ", " ++ literal ++ ")"

def Kind.description (k : Kind) : String :=
  "<TokenKind." ++ k.label ++ ": " ++ Text.quoted k.name ++ ">"

def Representation.description (r : Representation) : String :=
  "<Representation." ++ r.label ++ ": " ++ Text.quoted r.name ++ ">"

namespace Value

def kindName : Value → Except Defect String
  | .kind k => .ok k.name
  | .representation r => .ok r.name
  | v => .error (.missingPart v.typeName "value")

/-- Fails for a value that cannot be shown where there is room for `limit` characters, bytes or
items. Text always can, since it is abridged, and so can null. -/
def checkLength (limit : Nat) : Value → Except Defect Unit
  | .null => .ok ()
  | .text _ => .ok ()
  | .bytes content => if limit < content.length then .error .longBytes else .ok ()
  | .list items => if limit < items.length then .error (.longSequence "list") else .ok ()
  | .tuple items => if limit < items.length then .error (.longSequence "tuple") else .ok ()
  | .dict entries => if limit < entries.length then .error .longDictionary else .ok ()
  | v => .error (.unsized v.typeName)

mutual

/-- The description of a value, followed to `depth` levels. -/
def describeTo : Nat → Value → Except Defect String
  | 0, _ => .error .tooDeep
  | _ + 1, .null => .ok "None"
  | _ + 1, .bool b => .ok (if b then "True" else "False")
  | _ + 1, .int n => describeInt n
  | _ + 1, .float x => .ok x.text
  | _ + 1, .text s => .ok (Text.quoted s)
  | _ + 1, .bytes content => .ok (Text.quotedBytes content)
  | depth + 1, .list items => do
      let items ← describeItems depth items
      return "[" ++ ", ".intercalate items ++ "]"
  | depth + 1, .tuple items => do
      match ← describeItems depth items with
      | [item] => return "(" ++ item ++ ",)"
      | items => return "(" ++ ", ".intercalate items ++ ")"
  | depth + 1, .dict entries => do
      let entries ← describeEntries depth entries
      return "\x7b" ++ ", ".intercalate entries ++ "\x7d"
  | _ + 1, .record inPlace .null => do
      return recordDescription (← inPlace.kindName) "None"
  | _ + 1, .record inPlace (.text s) => do
      return recordDescription (← inPlace.kindName) (Text.quoted (abridged literalLimit s))
  | depth + 1, .record inPlace literal => do
      -- the length is asked for before anything else is known of the literal
      literal.checkLength literalLimit
      let name ← inPlace.kindName
      return recordDescription name (← describeTo depth literal)
  | _ + 1, .kind k => .ok k.description
  | _ + 1, .representation r => .ok r.description

def describeItems : Nat → List Value → Except Defect (List String)
  | _, [] => .ok []
  | depth, v :: rest => do
      let first ← describeTo depth v
      let others ← describeItems depth rest
      return first :: others

def describeEntries : Nat → List (Value × Value) → Except Defect (List String)
  | _, [] => .ok []
  | depth, (k, v) :: rest => do
      let key ← describeTo depth k
      let value ← describeTo depth v
      let others ← describeEntries depth rest
      return (key ++ ": " ++ value) :: others

end

def describe [Budget] (v : Value) : Except Defect String :=
  v.describeTo Budget.depth

def describeAbridged [Budget] (limit : Nat) : Value → Except Defect String
  | .text s => .ok (Text.quoted (abridged limit s))
  | v => v.describe

/-- The plain text of a value: a text stands for itself and a record for its literal; a kind and a
representation give their labels, and everything else its description. -/
def display [Budget] : Value → Except Defect Text
  | .text s => .ok s
  | .record _ (.text s) => .ok s
  | .record _ .null => .ok ""
  | .record _ literal => .error (.nonText literal.typeName)
  | .kind k => .ok ("TokenKind." ++ k.label)
  | .representation r => .ok ("Representation." ++ r.label)
  | v => v.describe.map Text.plain

/-- There is always room for one level. -/
theorem describe_eq [Budget] (v : Value) : ∃ depth, v.describe = v.describeTo (depth + 1) := by
  obtain ⟨depth, hdepth⟩ := Nat.exists_eq_succ_of_ne_zero (Nat.ne_of_gt Budget.pos)
  exact ⟨depth, by rw [describe, hdepth]⟩

theorem describe_int [Budget] (n : Int) : (Value.int n).describe = describeInt n := by
  obtain ⟨depth, h⟩ := describe_eq (.int n)
  rw [h, describeTo]

theorem display_int [Budget] (n : Int) :
    (Value.int n).display = (describeInt n).map Text.plain := by
  rw [display, describe_int]
  all_goals exact nofun

theorem describe_bytes [Budget] (content : List UInt8) :
    (Value.bytes content).describe = .ok (Text.quotedBytes content) := by
  obtain ⟨depth, h⟩ := describe_eq (.bytes content)
  rw [h, describeTo]

end Value

end SchemeLexer
