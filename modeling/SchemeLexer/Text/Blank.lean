/-!
# Blanks and letter case

What is dropped around a name and how its letters are folded before it is looked up among names
in ASCII.
-/

namespace SchemeLexer.Text

/-- A blank: a control character that moves or separates, or a character of the separator
categories of Unicode. -/
def isBlank (c : Char) : Bool :=
  let n := c.toNat
  (0x09 ≤ n && n ≤ 0x0d) || (0x1c ≤ n && n ≤ 0x20) || n = 0x85 || n = 0xa0 || n = 0x1680
    || (0x2000 ≤ n && n ≤ 0x200a) || n = 0x2028 || n = 0x2029 || n = 0x202f || n = 0x205f
    || n = 0x3000

def strip (text : List Char) : List Char :=
  ((text.dropWhile isBlank).reverse.dropWhile isBlank).reverse

/-- A letter in lower case, as far as ASCII goes: capital letters, the Kelvin sign, which is a
capital K, and the dotted capital I, which keeps its dot as a mark of its own. Any other character
has a lower case outside ASCII and stays, so a folded text is a name in ASCII exactly if its full
lower case is. -/
def foldChar (c : Char) : List Char :=
  if 'A' ≤ c && c ≤ 'Z' then [Char.ofNat (c.toNat + 32)]
  else if c.toNat = 0x212a then ['k']
  else if c.toNat = 0x130 then ['i', Char.ofNat 0x307]
  else [c]

def folded (name : String) : String :=
  String.ofList ((strip name.toList).flatMap foldChar)

end SchemeLexer.Text
