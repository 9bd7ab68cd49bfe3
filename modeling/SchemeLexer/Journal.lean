import SchemeLexer.Representation
/-!
# Journal

What the lexer notes about its work, and the names under which notes are kept.
-/

namespace SchemeLexer

inductive Event where
  | tokenized (lexemes characters : Nat)
  | converted (tokens : Nat) (form : Option Representation)
  | rewound (tokens : Nat)
  deriving DecidableEq, Repr

def Event.message : Event → String
  | .tokenized lexemes characters =>
      "Tokenized " ++ toString lexemes ++ " lexemes from " ++ toString characters ++ " characters"
  | .converted tokens form =>
      let form := (form.map Representation.name).getD "empty"
      "Converted " ++ toString tokens ++ " tokens from " ++ form ++ " form"
  | .rewound tokens => "Rewound cursor over " ++ toString tokens ++ " tokens"

namespace Journal

def root : String := "scmlex"

def name : String := "scmlex.lexer.core"

def level : String := "DEBUG"

/-- A journal name below the root: one that is not there yet is put there. -/
def qualified (name : String) : String :=
  if name = root || (root.toList ++ ['.']).isPrefixOf name.toList then name
  else root ++ "." ++ name

end Journal

end SchemeLexer
