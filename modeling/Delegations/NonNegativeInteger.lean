import Delegations.Element

/-!
The numbers that elements hold: one, two, four or eight big-endian bytes. Writing takes the
fewest of these, reading takes any.
-/
namespace Delegations.NonNegativeInteger

def size (n : UInt64) : Nat :=
  if n ≤ 0xFF then 1 else if n ≤ 0xFFFF then 2 else if n ≤ 0xFFFFFFFF then 4 else 8

section
variable {σ : Type} [Sink σ]

def prepend (n : UInt64) : StateM σ Nat :=
  Sink.prependBytes (BigEndian.encode (size n) n.toNat)

def prependElement (type : UInt32) (n : UInt64) : StateM σ Nat :=
  Sink.prependElement type (prepend n)

end

def decode (bytes : List UInt8) : Except TlvError UInt64 :=
  if bytes.length ∈ [1, 2, 4, 8] then .ok (UInt64.ofNat (BigEndian.decode bytes))
  else .error (.integerLength bytes.length)

def ofElement (element : Element) : Except TlvError UInt64 := decode element.value

end Delegations.NonNegativeInteger
