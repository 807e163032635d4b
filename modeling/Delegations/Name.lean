import Delegations.Component

/-!
Names are sequences of components. They are ordered component by component, and a name stands
before those that it is a proper prefix of.
-/
namespace Delegations

structure Name where
  components : List Component
deriving DecidableEq

namespace Name

def empty : Name := ⟨[]⟩

def push (name : Name) (component : Component) : Name := ⟨name.components ++ [component]⟩

instance : Ord Name where
  compare a b := compare a.components b.components

def isPrefixOf (a b : Name) : Bool := a.components.isPrefixOf b.components

def prepend {σ : Type} [Sink σ] (name : Name) : StateM σ Nat :=
  Sink.prependElement TypeNumber.name (Sink.prependEach Component.prepend name.components)

def wire (name : Name) : List UInt8 := written name.prepend

/-- The name that an element holds. All its children are read before any is taken as a
component. -/
def ofElement (element : Element) : Except TlvError Name := do
  if element.type ≠ TypeNumber.name then
    throw (.unexpectedType TypeNumber.name element.type)
  let children ← element.children
  return ⟨← children.mapM Component.ofElement⟩

end Name

end Delegations
