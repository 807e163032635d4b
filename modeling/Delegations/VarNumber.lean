import Delegations.Sink
import Delegations.TlvError

/-!
Type numbers and lengths take one byte up to 252; the bytes 253, 254 and 255 announce two, four
and eight further ones. Writing takes the shortest form, reading takes any.
-/
namespace Delegations.VarNumber

def size (n : UInt64) : Nat :=
  if n < 253 then 1 else if n ≤ 0xFFFF then 3 else if n ≤ 0xFFFFFFFF then 5 else 9

section
variable {σ : Type} [Sink σ]

def prependWide (first : UInt8) (width : Nat) (n : UInt64) : StateM σ Nat := do
  let body ← Sink.prependBytes (BigEndian.encode width n.toNat)
  return body + (← Sink.prependByte first)

def prepend (n : UInt64) : StateM σ Nat :=
  if n < 253 then Sink.prependByte n.toUInt8
  else if n ≤ 0xFFFF then prependWide 253 2 n
  else if n ≤ 0xFFFFFFFF then prependWide 254 4 n
  else prependWide 255 8 n

end

/-- The byte `252 + k` announces `2 ^ k` further ones, and a smaller one is the number itself. A
failing read has consumed the first byte, unless there is none. -/
def read : EStateM TlvError Cursor UInt64 := do
  let first ← Cursor.u8
  if first < 253 then return first.toUInt64
  return UInt64.ofNat (← Cursor.number (1 <<< (first.toNat - 252)))

/-- Reads a type number. One out of range is consumed all the same. -/
def readType : EStateM TlvError Cursor UInt32 := do
  let type ← read
  if type = 0 || 0xFFFFFFFF < type then throw (.typeOutOfRange type)
  return type.toUInt32

theorem size_lt_of_read {cursor next : Cursor} {n : UInt64} (h : read cursor = .ok n next) :
    next.size < cursor.size := by
  obtain ⟨first, rest, hfirst, h⟩ := bind_eq_ok.mp h
  have := Cursor.size_of_u8 (adaptExcept_eq_ok.mp hfirst)
  split at h
  · cases h
    omega
  · obtain ⟨_, _, hbody, h⟩ := bind_eq_ok.mp h
    have := Cursor.size_of_number (adaptExcept_eq_ok.mp hbody)
    generalize 1 <<< (first.toNat - 252) = width at this
    cases h
    omega

theorem size_lt_of_readType {cursor next : Cursor} {type : UInt32}
    (h : readType cursor = .ok type next) : next.size < cursor.size := by
  obtain ⟨n, rest, hn, h⟩ := bind_eq_ok.mp h
  have := size_lt_of_read hn
  split at h
  · cases h
  · cases h
    exact this

end Delegations.VarNumber
