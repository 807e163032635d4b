/-!
Reading decimal numbers below a limit. A plus sign may stand in front. Digits are read from the
left, and the first one that is no digit or that reaches the limit decides the fault.
-/
namespace Delegations.Text.Decimal

inductive Fault where
  | empty
  | invalidDigit
  | tooLarge
deriving DecidableEq

def Fault.message : Fault → String
  | empty => "cannot parse integer from empty string"
  | invalidDigit => "invalid digit found in string"
  | tooLarge => "number too large to fit in target type"

def readDigits (limit n : Nat) : List Char → Except Fault Nat
  | [] => .ok n
  | c :: rest =>
    if c.isDigit then
      let next := 10 * n + (c.toNat - '0'.toNat)
      if next < limit then readDigits limit next rest else .error .tooLarge
    else .error .invalidDigit

def read (limit : Nat) : List Char → Except Fault Nat
  | [] => .error .empty
  | ['+'] => .error .invalidDigit
  | '+' :: digits => readDigits limit 0 digits
  | digits => readDigits limit 0 digits

end Delegations.Text.Decimal
