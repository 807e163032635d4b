import Delegations.Cursor
import Delegations.Text.Quoted

/-! What can be wrong with an element, with the number it holds, or with a name. -/
namespace Delegations

inductive UriFault where
  /-- The digits before the equals sign exceed every type number. -/
  | componentType (digits : List Char)
  | tooFewPeriods (periods : List Char)
  | percentEscape (escaped : List Char)
deriving DecidableEq

def UriFault.message : UriFault → String
  | componentType digits => "bad component type " ++ Text.Quoted.text digits
  | tooFewPeriods periods =>
    "component " ++ Text.Quoted.text periods ++ " must have at least three periods"
  | percentEscape escaped => "bad percent escape in " ++ Text.Quoted.text escaped

inductive TlvError where
  | endOfInput (fault : EndOfInput)
  /-- A type number that is zero or does not fit into 32 bits. -/
  | typeOutOfRange (type : UInt64)
  | lengthExceedsInput (length : UInt64) (remaining : Nat)
  | trailingBytes (count : Nat)
  | integerLength (length : Nat)
  | unexpectedType (expected actual : UInt32)
  | componentTypeOutOfRange (type : UInt32)
  | uri (fault : UriFault)
deriving DecidableEq

def TlvError.message : TlvError → String
  | endOfInput fault => fault.message
  | typeOutOfRange type => s!"TLV-TYPE {type} is out of range"
  | lengthExceedsInput length remaining =>
    s!"TLV-LENGTH {length} exceeds the {remaining} remaining bytes"
  | trailingBytes count => s!"{count} trailing bytes after TLV element"
  | integerLength length => s!"invalid length {length} for nonNegativeInteger"
  | unexpectedType expected actual => s!"expected TLV-TYPE {expected}, found {actual}"
  | componentTypeOutOfRange type => s!"name component TLV-TYPE {type} is out of range"
  | uri fault => "invalid URI: " ++ fault.message

instance : MonadLift (EStateM EndOfInput Cursor) (EStateM TlvError Cursor) where
  monadLift := EStateM.adaptExcept TlvError.endOfInput

end Delegations
