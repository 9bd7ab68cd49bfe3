/-!
# About the lexer
-/

namespace SchemeLexer

def version : String := "0.3.0"

def banner : String := "(scheme-lexer :version " ++ version ++ ")"

end SchemeLexer
