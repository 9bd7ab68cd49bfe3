/-!
# Defects

Why a value cannot be shown, written or told apart from others. Values are known here by the names
of their types.
-/

namespace SchemeLexer

/-- The greatest number of digits of an integer that is written or read. -/
def digitLimit : Nat := 4300

/-- What is wrong with a value. A sequence, bytes or a dictionary that is too long to be shown
cannot be cut as a text can, each for a reason of its own. -/
inductive Defect where
  | missingPart (typeName part : String)
  | unsized (typeName : String)
  | longSequence (typeName : String)
  | longBytes
  | longDictionary
  | nonText (typeName : String)
  | unwritable (typeName : String)
  | unwritableKey (typeName : String)
  | unhashable (typeName : String)
  | hugeInteger
  | tooDeep
  | uncountable
  | outOfRange
  deriving DecidableEq, Repr

def Defect.message : Defect → String
  | .missingPart typeName part => "'" ++ typeName ++ "' object has no attribute '" ++ part ++ "'"
  | .unsized typeName => "object of type '" ++ typeName ++ "' has no len()"
  | .longSequence typeName =>
      "can only concatenate " ++ typeName ++ " (not \"str\") to " ++ typeName
  | .longBytes => "can't concat str to bytes"
  | .longDictionary => "unhashable type: 'slice'"
  | .nonText typeName => "__str__ returned non-string (type " ++ typeName ++ ")"
  | .unwritable typeName => "Object of type " ++ typeName ++ " is not JSON serializable"
  | .unwritableKey typeName =>
      "keys must be str, int, float, bool or None, not " ++ typeName
  | .unhashable typeName => "unhashable type: '" ++ typeName ++ "'"
  | .hugeInteger =>
      "Exceeds the limit (" ++ toString digitLimit ++ " digits) for integer string conversion; "
        ++ "use sys.set_int_max_str_digits() to increase the limit"
  | .tooDeep => "maximum recursion depth exceeded while getting the repr of an object"
  | .uncountable => "cannot fit 'int' into an index-sized integer"
  | .outOfRange => "tuple index out of range"

end SchemeLexer
