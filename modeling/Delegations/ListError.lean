import Delegations.TlvError

/-! What can be wrong with a delegation list, or with what is asked of one. -/
namespace Delegations

inductive UsageError where
  | listType (type : UInt32)
  | unknownPolicy (text : List Char)
deriving DecidableEq

def UsageError.message : UsageError → String
  | listType type => s!"unexpected TLV-TYPE {type} while encoding delegation list"
  | unknownPolicy text => "unknown insert conflict resolution " ++ Text.Quoted.text text

inductive FormatError where
  | unexpectedListType (type : UInt32)
  | unexpectedDelegationType (type : UInt32)
  | malformed (fault : TlvError)
  | missingPreference
  | invalidPreference (fault : TlvError)
  | missingName
  | invalidName (fault : TlvError)
  | emptyList
deriving DecidableEq

namespace FormatError

def message : FormatError → String
  | unexpectedListType type => s!"unexpected TLV-TYPE {type} while decoding delegation list"
  | unexpectedDelegationType type => s!"unexpected TLV-TYPE {type} while decoding Delegation"
  | malformed _ => "malformed TLV in delegation list"
  | missingPreference => "missing Preference field in Delegation"
  | invalidPreference _ => "invalid Preference field in Delegation"
  | missingName => "missing Name field in Delegation"
  | invalidName _ => "invalid Name field in Delegation"
  | emptyList => "empty delegation list"

def cause? : FormatError → Option TlvError
  | malformed fault | invalidPreference fault | invalidName fault => some fault
  | _ => none

end FormatError

inductive ListError where
  | usage (error : UsageError)
  | format (error : FormatError)
  | outOfRange (index length : Nat)
deriving DecidableEq

namespace ListError

def message : ListError → String
  | usage error => error.message
  | format error => error.message
  | outOfRange index length => s!"index {index} out of range for delegation list of length {length}"

def cause? : ListError → Option TlvError
  | format error => error.cause?
  | _ => none

end ListError

end Delegations
