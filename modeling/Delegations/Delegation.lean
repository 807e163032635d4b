import Delegations.Name.Uri
import Delegations.NonNegativeInteger

/-!
A delegation is a name to send towards and how early to try it. Lower preferences come first, and
names decide between equal ones.
-/
namespace Delegations

structure Delegation where
  preference : UInt64
  name : Name
deriving DecidableEq

namespace Delegation

instance : Ord Delegation where
  compare a b := (compare a.preference b.preference).then (compare a.name b.name)

instance : LE Delegation := leOfOrd

instance : DecidableLE Delegation := inferInstanceAs (DecidableRel fun a b => a ≤ b)

def text (delegation : Delegation) : List Char :=
  delegation.name.uri ++ '(' :: Nat.toDigits 10 delegation.preference.toNat ++ [')']

instance : ToString Delegation where
  toString delegation := String.ofList delegation.text

def prepend {σ : Type} [Sink σ] (delegation : Delegation) : StateM σ Nat :=
  Sink.prependElement TypeNumber.delegation do
    let name ← delegation.name.prepend
    return name +
      (← NonNegativeInteger.prependElement TypeNumber.preference delegation.preference)

end Delegation

end Delegations
