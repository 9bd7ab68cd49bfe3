import SchemeLexer.Value.Description
/-!
# Faults

What can go wrong while tokens are built, converted or read, by cause. A fault carries the values
that its message shows. Since the message is part of the fault, a fault about a value without a
description cannot be raised; `Fault.raise` then reports what is wrong with the value instead.
-/

namespace SchemeLexer

/-- What went wrong. A foreign fault comes from outside the lexer and is known by its name and its
message. -/
inductive Fault where
  | unknownKind (name : Value)
  | unconvertible (message value : Value)
  | invalidMapping (message mapping : Value)
  | invalidJson (message text : Value)
  | endOfStream (position size : Value)
  | general (details : List Value)
  | negativeOffset (offset : Int)
  | notIterable (typeName : String)
  | notKind (value : Value)
  | unknownSetting (name : String)
  | foreign (name message : String)
  | defective (defect : Defect)

namespace Fault

def previewLimit : Nat := 40

variable [Budget]

def message : Fault → Except Defect Text
  | .unknownKind name => return "Unknown token kind: " ++ (← name.describe)
  | .unconvertible message value =>
      if value.isNull then message.display
      else return (← message.display) ++ ": " ++ (← value.describe)
  | .invalidMapping message _ => message.display
  | .invalidJson message text =>
      if text.isNull then message.display
      else do
        text.checkLength previewLimit
        return (← message.display) ++ " (in " ++ (← text.describeAbridged previewLimit) ++ ")"
  | .endOfStream position size => do
      let position ← position.display
      let size ← size.display
      return "No token at position " ++ position ++ " (sequence has " ++ size ++ " tokens)"
  | .general [] => return ""
  | .general [detail] => detail.display
  | .general details => (Value.tuple details).describe
  | .negativeOffset offset =>
      return "Offset must be non-negative, got " ++ (← describeInt offset)
  | .notIterable typeName => return "'" ++ typeName ++ "' object is not iterable"
  | .notKind value => return (← value.describe) ++ " is not a valid TokenKind"
  | .unknownSetting name =>
      return "LexConfig.__init__() got an unexpected keyword argument '" ++ name ++ "'"
  | .foreign _ message => return message
  | .defective defect => return defect.message

/-- The fault that is reported where `f` arises: `f` itself if it has a message, and otherwise
what is wrong with a value that the message shows. -/
def settle (f : Fault) : Fault :=
  match f.message with
  | .ok _ => f
  | .error defect => .defective defect

def raise {α : Type} (f : Fault) : Except Fault α :=
  .error f.settle

def text (f : Fault) : Text :=
  match f.message with
  | .ok s => s
  | .error defect => defect.message

end Fault

end SchemeLexer
