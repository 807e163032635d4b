import Delegations.ConflictPolicy
import Delegations.Delegation

/-!
Lists of delegations, kept in order or in the order of their arrival.
-/
namespace Delegations

structure DelegationList where
  /-- Whether new delegations are put at their place in the order or at the end. -/
  isSorted : Bool
  items : List Delegation

namespace DelegationList

def empty : DelegationList := ⟨true, []⟩

/-- Lists are alike if they hold the same delegations in the same order. -/
instance : BEq DelegationList where
  beq a b := a.items == b.items

/-- A sorted list takes the delegation after those that are not greater, any other at the end. -/
def place (delegation : Delegation) (list : DelegationList) : DelegationList :=
  if list.isSorted then
    { list with
      items := list.items.takeWhile (· ≤ delegation) ++
        delegation :: list.items.dropWhile (· ≤ delegation) }
  else { list with items := list.items ++ [delegation] }

/-- The number of delegations that the test holds of, and the list without them. -/
def eraseIf (test : Delegation → Bool) (list : DelegationList) : Nat × DelegationList :=
  let kept := list.items.filter (!test ·)
  (list.items.length - kept.length, { list with items := kept })

def erase (preference : UInt64) (name : Name) : DelegationList → Nat × DelegationList :=
  eraseIf fun delegation => delegation.preference == preference && delegation.name == name

def eraseName (name : Name) : DelegationList → Nat × DelegationList :=
  eraseIf fun delegation => delegation.name == name

def eraseDelegation (delegation : Delegation) : DelegationList → Nat × DelegationList :=
  erase delegation.preference delegation.name

/-- Whether the delegation was taken, and the list with it. -/
def insert (delegation : Delegation) (policy : ConflictPolicy) (list : DelegationList) :
    Bool × DelegationList :=
  match policy with
  | .replace => (true, (list.eraseName delegation.name).2.place delegation)
  | .append => (true, list.place delegation)
  | .skip =>
    if list.items.any (·.name == delegation.name) then (false, list)
    else (true, list.place delegation)

def ofDelegations (delegations : List Delegation) : DelegationList :=
  delegations.foldl (fun list delegation => (list.insert delegation .replace).2) empty

/-- Puts the list in order, from now on. Equal delegations keep their order. -/
def sort (list : DelegationList) : DelegationList :=
  if list.isSorted then list
  else list.items.foldl (fun sorted delegation => sorted.place delegation) empty

def size (list : DelegationList) : Nat := list.items.length

def isEmpty (list : DelegationList) : Bool := list.items.isEmpty

def get? (list : DelegationList) (index : Nat) : Option Delegation := list.items[index]?

def lookup (list : DelegationList) (index : Nat) : Except ListError Delegation :=
  match list.get? index with
  | some delegation => .ok delegation
  | none => .error (.outOfRange index list.size)

def text (list : DelegationList) : List Char :=
  '[' :: ([','].intercalate (list.items.map Delegation.text) ++ [']'])

instance : ToString DelegationList where
  toString list := String.ofList list.text

end DelegationList

end Delegations
