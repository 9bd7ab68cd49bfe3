import SchemeLexer.Charset
/-!
# Identifiers

An ordinary identifier begins with an initial character and goes on with subsequent ones. A
peculiar identifier begins with a sign or a dot, and what may follow is chosen so that no numeral
is one: `+`, `...` and `->x` are identifiers, `+5` and `.5` are not. A dot, alone or after a sign,
is accepted too.
-/

namespace SchemeLexer.Identifier

def afterDot : List Char → Bool
  | [] => true
  | c :: rest => Charset.isDotSubsequent c && rest.all Charset.isSubsequent

/-- What may follow a sign: nothing, a dot with what may follow it, or a sign-subsequent
character and then subsequent ones. -/
def afterSign : List Char → Bool
  | [] => true
  | c :: rest =>
      if c = '.' then afterDot rest
      else Charset.isSignSubsequent c && rest.all Charset.isSubsequent

def accepts : List Char → Bool
  | [] => false
  | c :: rest =>
      if Charset.isInitial c then rest.all Charset.isSubsequent
      else if Charset.isExplicitSign c then afterSign rest
      else if c = '.' then afterDot rest
      else false

end SchemeLexer.Identifier
