import Delegations.DelegationList.Encoding

/-!
Delegation lists from elements. Every delegation is kept, and what follows the name inside of one
is passed over.
-/
namespace Delegations

namespace Delegation

def preferenceField : Option Element → Except FormatError UInt64
  | some field =>
    if field.type = TypeNumber.preference then
      (NonNegativeInteger.ofElement field).mapError .invalidPreference
    else .error .missingPreference
  | none => .error .missingPreference

def nameField : Option Element → Except FormatError Name
  | some field =>
    if field.type = TypeNumber.name then (Name.ofElement field).mapError .invalidName
    else .error .missingName
  | none => .error .missingName

def ofElement (element : Element) : Except FormatError Delegation := do
  if element.type ≠ TypeNumber.delegation then throw (.unexpectedDelegationType element.type)
  let fields ← element.children.mapError .malformed
  let preference ← preferenceField fields[0]?
  let name ← nameField fields[1]?
  return { preference, name }

end Delegation

namespace DelegationList

def placeElement (element : Element) : EStateM FormatError DelegationList Unit := do
  match Delegation.ofElement element with
  | .ok delegation => modify (·.place delegation)
  | .error error => throw error

/-- Fills the list from an element in place of what it held. An element of another type leaves
the list as it was; any later error leaves the delegations read before it. -/
def load (element : Element) (sorted : Bool) : EStateM FormatError DelegationList Unit := do
  if !isListType element.type then throw (.unexpectedListType element.type)
  set ({ isSorted := sorted, items := [] } : DelegationList)
  match element.children with
  | .error fault => throw (.malformed fault)
  | .ok children =>
    children.forM placeElement
    if (← get).isEmpty then throw .emptyList

def ofElement (element : Element) (sorted : Bool) : Except FormatError DelegationList :=
  match (load element sorted).run empty with
  | .ok _ list => .ok list
  | .error error _ => .error error

def ofWire (wire : List UInt8) (sorted : Bool) : Except FormatError DelegationList := do
  ofElement (← (Element.decode wire).mapError .malformed) sorted

end DelegationList

end Delegations
