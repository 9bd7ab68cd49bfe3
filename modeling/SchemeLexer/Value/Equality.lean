import SchemeLexer.Value.Basic
import SchemeLexer.Value.Defect
/-!
# Equality of values

Truth values are the numbers zero and one, and integers and floating-point numbers are equal if
they denote the same number; values of other types are equal only within their type.
Dictionaries are equal if they have equal values under equal keys, in whatever order.
-/

namespace SchemeLexer

namespace Binary64

def equalsInt (n : Int) : Binary64 → Bool
  | .finite negative m q =>
      let signed : Int := if negative then -(m : Int) else m
      if q < 0 then n * pow2 q.natAbs = signed else n = signed * pow2 q.natAbs
  | _ => false

/-- Whether two floating-point numbers denote the same number: both zeros do, and no number is
the same as one that is not a number. -/
def same : Binary64 → Binary64 → Bool
  | .nan, _ => false
  | .finite s m q, .finite s' m' q' => (m = 0 && m' = 0) || (s = s' && m = m' && q = q')
  | x, y => x = y

end Binary64

namespace Value

def int? : Value → Option Int
  | .bool b => some (if b then 1 else 0)
  | .int n => some n
  | _ => none

def sameNumber (a b : Value) : Bool :=
  match a.int?, b.int?, a, b with
  | some m, some n, _, _ => m = n
  | some m, none, _, .float y => y.equalsInt m
  | none, some n, .float x, _ => x.equalsInt n
  | _, _, _, _ => false

mutual

def same : Value → Value → Bool
  | .null, .null => true
  | .float x, .float y => x.same y
  | .text s, .text t => s = t
  | .bytes a, .bytes b => a = b
  | .list xs, .list ys => sameAll xs ys
  | .tuple xs, .tuple ys => sameAll xs ys
  | .dict xs, .dict ys => xs.length = ys.length && sameEntries xs ys
  | .record k l, .record k' l' => same k k' && same l l'
  | .kind k, .kind k' => k = k'
  | .representation r, .representation r' => r = r'
  | a, b => sameNumber a b

def sameAll : List Value → List Value → Bool
  | [], [] => true
  | x :: xs, y :: ys => same x y && sameAll xs ys
  | _, _ => false

/-- Whether every entry of the first dictionary is one of the second. -/
def sameEntries : List (Value × Value) → List (Value × Value) → Bool
  | [], _ => true
  | (k, v) :: xs, ys => (ys.any fun (k', v') => same k k' && same v v') && sameEntries xs ys

end

/-- Puts an entry into a dictionary: a key that is there keeps its place and takes the new value. -/
def put (key value : Value) : List (Value × Value) → List (Value × Value)
  | [] => [(key, value)]
  | (k, v) :: rest => if same k key then (k, value) :: rest else (k, v) :: put key value rest

def ofEntries (entries : List (Value × Value)) : Value :=
  .dict (entries.foldl (fun found (k, v) => put k v found) [])

mutual

def changeable? : Value → Option String
  | .list _ => some "list"
  | .dict _ => some "dict"
  | .tuple items => anyChangeable? items
  | .record k l => (changeable? k).or (changeable? l)
  | _ => none

def anyChangeable? : List Value → Option String
  | [] => none
  | v :: rest => (changeable? v).or (anyChangeable? rest)

end

/-- The values of a list without those that equal an earlier one. None of them may change. -/
def distinct (values : List Value) : Except Defect (List Value) :=
  match anyChangeable? values with
  | some typeName => .error (.unhashable typeName)
  | none =>
      .ok (values.foldl (fun found v => if found.any (same v) then found else found ++ [v]) [])

def equalsItself : Value → Bool
  | .float .nan => false
  | _ => true

def equalsFirst : List Value → List Bool
  | [] => []
  | first :: rest => first.equalsItself :: rest.map fun v => same v first

end Value

end SchemeLexer
