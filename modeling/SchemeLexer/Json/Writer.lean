import SchemeLexer.Json.Layout
import SchemeLexer.Value.Description
/-!
# Writing JSON text

Lists and tuples are written as arrays and dictionaries as objects, whose keys are text or what has
a word of its own: null, the truth values and the numbers. Nothing else can be written but text.
-/

namespace SchemeLexer.Json

def floatWord : Binary64 → String
  | .nan => "NaN"
  | .infinite negative => if negative then "-Infinity" else "Infinity"
  | x => x.text

def word? : Value → Option (Except Defect String)
  | .null => some (.ok "null")
  | .bool b => some (.ok (if b then "true" else "false"))
  | .int n => some (describeInt n)
  | .float x => some (.ok (floatWord x))
  | _ => none

def keyText (v : Value) : Except Defect Text :=
  match v with
  | .text s => .ok s
  | _ => ((word? v).getD (.error (.unwritableKey v.typeName))).map Text.plain

mutual

def written (l : Layout) (level : Nat) : Value → Except Defect (List Char)
  | .text s => .ok (writtenText s)
  | .list items => return l.array level (← writtenItems l (level + 1) items)
  | .tuple items => return l.array level (← writtenItems l (level + 1) items)
  | .dict entries => return l.object level (← writtenEntries l (level + 1) entries)
  | v => ((word? v).getD (.error (.unwritable v.typeName))).map String.toList

def writtenItems (l : Layout) (level : Nat) : List Value → Except Defect (List (List Char))
  | [] => .ok []
  | v :: rest => do
      let first ← written l level v
      let others ← writtenItems l level rest
      return first :: others

def writtenEntries (l : Layout) (level : Nat) :
    List (Value × Value) → Except Defect (List (Text × List Char))
  | [] => .ok []
  | (k, v) :: rest => do
      let key ← keyText k
      let value ← written l level v
      let others ← writtenEntries l level rest
      return (key, value) :: others

end

end SchemeLexer.Json
