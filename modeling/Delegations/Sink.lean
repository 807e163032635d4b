/-!
Sinks are filled from the back towards the front, so that a value is written before the header
that tells its length, and the last item of a list before the first one. Every step returns the
number of bytes it added.
-/
namespace Delegations

/-- A place that bytes are prepended to, whether it keeps them or only counts them. -/
class Sink (σ : Type) where
  prependByte : UInt8 → StateM σ Nat
  prependBytes : List UInt8 → StateM σ Nat
  size : σ → Nat

namespace Sink

instance : Sink (List UInt8) where
  prependByte byte := modifyGet fun bytes => (1, byte :: bytes)
  prependBytes front := modifyGet fun bytes => (front.length, front ++ bytes)
  size := List.length

variable {σ : Type} [Sink σ] {α : Type}

def prependEach (prepend : α → StateM σ Nat) (items : List α) : StateM σ Nat :=
  items.foldrM (fun item total => do return total + (← prepend item)) 0

end Sink

/-- The sink that keeps no bytes: a first pass over it tells how large a buffer the second one
needs. -/
structure ByteCount where
  count : Nat := 0
deriving DecidableEq

instance : Sink ByteCount where
  prependByte _ := modifyGet fun total => (1, ⟨total.count + 1⟩)
  prependBytes front := modifyGet fun total => (front.length, ⟨total.count + front.length⟩)
  size := ByteCount.count

def written (step : StateM (List UInt8) Nat) : List UInt8 :=
  (step.run []).2

end Delegations
