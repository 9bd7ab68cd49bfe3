/-!
# Kinds of tokens

The closed list of kinds, each with the name under which mappings and JSON text carry it.
-/

namespace SchemeLexer

inductive Kind where
  | lparen
  | rparen
  | vecLparen
  | bytevecLparen
  | quotation
  | backquote
  | comma
  | commaAt
  | dot
  | semicolon
  | commentLparen
  | commentRparen
  | identifier
  | boolean
  | number
  | character
  | string
  | opProc
  | illegal
  deriving DecidableEq, Repr

namespace Kind

def all : List Kind :=
  [.lparen, .rparen, .vecLparen, .bytevecLparen, .quotation, .backquote, .comma, .commaAt, .dot,
    .semicolon, .commentLparen, .commentRparen, .identifier, .boolean, .number, .character,
    .string, .opProc, .illegal]

/-- The name that mappings and JSON text use for a kind. -/
def name : Kind → String
  | .lparen => "lparen"
  | .rparen => "rparen"
  | .vecLparen => "vec_lparen"
  | .bytevecLparen => "bytevec_lparen"
  | .quotation => "quotation"
  | .backquote => "backquote"
  | .comma => "comma"
  | .commaAt => "comma_at"
  | .dot => "dot"
  | .semicolon => "semicolon"
  | .commentLparen => "comment_lparen"
  | .commentRparen => "comment_rparen"
  | .identifier => "identifier"
  | .boolean => "boolean"
  | .number => "number"
  | .character => "character"
  | .string => "string"
  | .opProc => "op_proc"
  | .illegal => "illegal"

/-- The capitalised label of a kind, which descriptions show. -/
def label : Kind → String
  | .lparen => "LPAREN"
  | .rparen => "RPAREN"
  | .vecLparen => "VEC_LPAREN"
  | .bytevecLparen => "BYTEVEC_LPAREN"
  | .quotation => "QUOTATION"
  | .backquote => "BACKQUOTE"
  | .comma => "COMMA"
  | .commaAt => "COMMA_AT"
  | .dot => "DOT"
  | .semicolon => "SEMICOLON"
  | .commentLparen => "COMMENT_LPAREN"
  | .commentRparen => "COMMENT_RPAREN"
  | .identifier => "IDENTIFIER"
  | .boolean => "BOOLEAN"
  | .number => "NUMBER"
  | .character => "CHARACTER"
  | .string => "STRING"
  | .opProc => "OP_PROC"
  | .illegal => "ILLEGAL"

def ofName? (s : String) : Option Kind :=
  all.find? fun k => k.name == s

theorem mem_all (k : Kind) : k ∈ all := by
  cases k <;> decide

theorem ofName?_name (k : Kind) : ofName? k.name = some k := by
  cases k <;> decide

end Kind

end SchemeLexer
