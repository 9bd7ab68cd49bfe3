import SchemeLexer.Decimal.Binary
import SchemeLexer.Representation
import SchemeLexer.Token
/-!
# Values

The data from which tokens are built and as which they are handed out: what JSON text denotes,
with bytes, tuples, dictionaries with keys of any type, tokens, kinds and representations beside
it. A dictionary keeps its entries in the order of their first insertion.
-/

namespace SchemeLexer

/-- A dynamically typed value. A record has the shape of a token, with anything in the place of the
kind and anything in the place of the literal. -/
inductive Value where
  | null
  | bool (b : Bool)
  | int (n : Int)
  | float (x : Binary64)
  | text (s : Text)
  | bytes (content : List UInt8)
  | list (items : List Value)
  | tuple (items : List Value)
  | dict (entries : List (Value × Value))
  | record (kind literal : Value)
  | kind (k : Kind)
  | representation (r : Representation)

namespace Value

def typeName : Value → String
  | .null => "NoneType"
  | .bool _ => "bool"
  | .int _ => "int"
  | .float _ => "float"
  | .text _ => "str"
  | .bytes _ => "bytes"
  | .list _ => "list"
  | .tuple _ => "tuple"
  | .dict _ => "dict"
  | .record _ _ => "Token"
  | .kind _ => "TokenKind"
  | .representation _ => "Representation"

def ofText? : Option Text → Value
  | none => .null
  | some s => .text s

def token (t : Token) : Value :=
  .record (.kind t.kind) (.ofText? t.literal)

def isNull : Value → Bool
  | .null => true
  | _ => false

/-- Whether a value counts as true where a condition is wanted: null, false, zeros and everything
empty do not. -/
def truthy : Value → Bool
  | .null => false
  | .bool b => b
  | .int n => n ≠ 0
  | .float (.finite _ m _) => m ≠ 0
  | .float _ => true
  | .text s => s ≠ ""
  | .bytes content => !content.isEmpty
  | .list items => !items.isEmpty
  | .tuple items => !items.isEmpty
  | .dict entries => !entries.isEmpty
  | .record _ _ => true
  | .kind _ => true
  | .representation _ => true

/-- The elements that iteration over a value gives: the items of a list or a tuple, the
code points of a text, the numbers of bytes, the keys of a dictionary. Nothing else has any. -/
def elements? : Value → Option (List Value)
  | .text s => some (s.points.map fun p => .text (.ofPoints [p]))
  | .bytes content => some (content.map fun b => .int b.toNat)
  | .list items => some items
  | .tuple items => some items
  | .dict entries => some (entries.map Prod.fst)
  | _ => none

def isText (s : String) : Value → Bool
  | .text (.plain t) => t == s
  | _ => false

def isKind (k : Kind) : Value → Bool
  | .kind k' => k' = k
  | _ => false

def lookup? (entries : List (Value × Value)) (key : String) : Option Value :=
  (entries.find? fun (k, _) => k.isText key).map Prod.snd

end Value

end SchemeLexer
