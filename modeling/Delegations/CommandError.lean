import Delegations.ListError
import Delegations.Text.Decimal

/-! What can be wrong with a command or with the text that it is given. -/
namespace Delegations

inductive LineFault where
  | oneWord (line : List Char)
  | preference (text : List Char) (fault : Text.Decimal.Fault)
  | name (fault : TlvError)
deriving DecidableEq

def LineFault.message : LineFault → String
  | oneWord line => "expected `<preference> <name>`, got " ++ Text.Quoted.text line
  | preference text fault => "bad preference " ++ Text.Quoted.text text ++ ": " ++ fault.message
  | name fault => fault.message

inductive CommandError where
  | notText
  | hex (reason : String)
  /-- Lines are counted from one. -/
  | line (number : Nat) (fault : LineFault)
  | list (error : ListError)
  | format (error : FormatError)
  | usage (error : UsageError)
  | unknownCommand (name : String)
deriving DecidableEq

namespace CommandError

def message : CommandError → String
  | notText => "stream did not contain valid UTF-8"
  | hex reason => "invalid hex input: " ++ reason
  | line number fault => s!"line {number}: " ++ fault.message
  | list error => error.message
  | format error => error.message
  | usage error => error.message
  | unknownCommand name => "unknown command: " ++ name

def causes : CommandError → List String
  | hex reason => [reason]
  | list error => error.cause?.toList.map TlvError.message
  | format error => error.cause?.toList.map TlvError.message
  | _ => []

end CommandError

end Delegations
