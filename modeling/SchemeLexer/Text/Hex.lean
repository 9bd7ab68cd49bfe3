/-!
# Hexadecimal numerals of fixed width
-/

namespace SchemeLexer.Text

def hexChar (d : Nat) : Char :=
  if d < 10 then Char.ofNat (48 + d) else Char.ofNat (87 + d)

/-- The last digits of the hexadecimal numeral of `n`, as many as the width. -/
def hex : Nat → Nat → List Char
  | 0, _ => []
  | width + 1, n => hex width (n / 16) ++ [hexChar (n % 16)]

end SchemeLexer.Text
