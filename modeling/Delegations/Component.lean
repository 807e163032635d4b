import Delegations.Element

/-!
Name components. Their order is by type, then by length, then by bytes, which is the order of
their encodings.
-/
namespace Delegations

/-- One segment of a name: any bytes, with a type number that fits into 16 bits. -/
structure Component where
  type : UInt32
  value : List UInt8
  type_pos : 0 < type
  type_le : type ≤ TypeNumber.largestComponent
deriving DecidableEq

namespace Component

def ofParts (type : UInt32) (value : List UInt8) : Except TlvError Component :=
  if h : 0 < type ∧ type ≤ TypeNumber.largestComponent then .ok ⟨type, value, h.1, h.2⟩
  else .error (.componentTypeOutOfRange type)

def generic (value : List UInt8) : Component :=
  ⟨TypeNumber.genericComponent, value, by decide, by decide⟩

def isGeneric (component : Component) : Bool := component.type == TypeNumber.genericComponent

def ofElement (element : Element) : Except TlvError Component :=
  ofParts element.type element.value

instance : Ord Component where
  compare a b :=
    (compare a.type b.type).then
      ((compare a.value.length b.value.length).then (compare a.value b.value))

def prepend {σ : Type} [Sink σ] (component : Component) : StateM σ Nat :=
  Sink.prependElement component.type (Sink.prependBytes component.value)

def wire (component : Component) : List UInt8 := written component.prepend

end Component

end Delegations
