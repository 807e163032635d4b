import Delegations.DelegationList

/-!
Delegation lists as elements. A list is written into a Content or a ForwardingHint element, and
the size of the buffer is found by a pass that only counts.
-/
namespace Delegations.DelegationList

def isListType (type : UInt32) : Bool :=
  type == TypeNumber.content || type == TypeNumber.forwardingHint

/-- Prepends the list as an element. Nothing is written where the type or the list is refused. -/
def prepend {σ : Type} [Sink σ] (list : DelegationList) (type : UInt32) :
    EStateM ListError σ Nat := do
  if !isListType type then throw (.usage (.listType type))
  if list.isEmpty then throw (.format .emptyList)
  modifyGet (Sink.prependElement type (Sink.prependEach Delegation.prepend list.items)).run

def toWire (list : DelegationList) (type : UInt32) : Except ListError (List UInt8) :=
  match (list.prepend type).run ({} : ByteCount) with
  | .error error _ => .error error
  | .ok size _ =>
    match (list.prepend type).run (Buffer.withCapacity size) with
    | .error error _ => .error error
    | .ok _ buffer => .ok buffer.bytes

def toElement (list : DelegationList) (type : UInt32) : Except ListError Element := do
  (Element.decode (← list.toWire type)).mapError (.format <| .malformed ·)

end Delegations.DelegationList
