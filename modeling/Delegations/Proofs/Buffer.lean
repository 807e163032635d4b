import Mathlib
import Delegations.Buffer
import Delegations.Proofs.Reading

/-!
A buffer is a byte list that is kept at the end of an allocation. Main statement: whatever is done
with a buffer, it answers and holds what the plain list would, and it allocates again only for want
of headroom (`performAll_refines`).
-/
namespace Delegations.Buffer

theorem reserve_cases (count : Nat) (buffer : Buffer) :
    (count ≤ buffer.headroom ∧ buffer.reserve count = buffer) ∨
      (buffer.headroom < count ∧ ∃ newSize, buffer.size + count ≤ newSize ∧
        buffer.reserve count = buffer.grow newSize) := by
  unfold reserve headroom
  split
  · rename_i short
    refine .inr ⟨short, _, ?_, rfl⟩
    split <;> omega
  · exact .inl ⟨by omega, rfl⟩

def Reserves (count : Nat) (before after : Buffer) : Prop :=
  count ≤ after.headroom ∧ after.bytes = before.bytes ∧ (count ≤ before.headroom → after = before)

theorem reserves_reserve (count : Nat) (buffer : Buffer) :
    Reserves count buffer (buffer.reserve count) := by
  refine ⟨le_headroom_reserve count buffer, bytes_reserve count buffer, ?_⟩
  unfold reserve headroom
  intro fits
  rw [if_neg (by omega)]

theorem allocation_grow {buffer : Buffer} {newSize : Nat} (holds : buffer.size ≤ newSize) :
    (buffer.grow newSize).allocation = newSize := by
  simp only [allocation, grow, size, Array.size_append, Array.size_replicate,
    Array.size_extract] at *
  omega

theorem allocation_lt_reserve {count : Nat} {buffer : Buffer} (short : buffer.headroom < count) :
    buffer.allocation < (buffer.reserve count).allocation := by
  rcases reserve_cases count buffer with ⟨fits, _⟩ | ⟨_, newSize, large, grown⟩
  · omega
  · rw [grown, allocation_grow (by omega), ← headroom_add_size]
    omega

theorem allocation_le_reserve (count : Nat) (buffer : Buffer) :
    buffer.allocation ≤ (buffer.reserve count).allocation := by
  rcases reserve_cases count buffer with ⟨_, same⟩ | ⟨short, _⟩
  · rw [same]
  · exact (allocation_lt_reserve short).le

theorem headroom_prepend (front : List UInt8) (buffer : Buffer) :
    (buffer.prepend front).headroom = (buffer.reserve front.length).headroom - front.length := rfl

theorem storage_prepend (front : List UInt8) (buffer : Buffer) :
    (buffer.prepend front).storage = write (buffer.reserve front.length).storage
      ((buffer.reserve front.length).headroom - front.length) front := rfl

theorem allocation_prepend (front : List UInt8) (buffer : Buffer) :
    (buffer.prepend front).allocation = (buffer.reserve front.length).allocation := by
  unfold allocation
  rw [storage_prepend, size_write]

/-- The bytes stand in front of the others in the same allocation, which is as it was before them
and after them. -/
def InPlace (front : List UInt8) (before after : Buffer) : Prop :=
  after.headroom + front.length = before.headroom ∧
    after.storage.toList = before.storage.toList.take after.headroom ++ front ++ before.bytes

theorem inPlace_prepend (front : List UInt8) (buffer : Buffer) :
    InPlace front (buffer.reserve front.length) (buffer.prepend front) := by
  have room := le_headroom_reserve front.length buffer
  have inside := (buffer.reserve front.length).start_le
  refine ⟨?_, ?_⟩
  · rw [headroom_prepend, Nat.sub_add_cancel room]
  · rw [storage_prepend, headroom_prepend, bytes_eq_drop]
    unfold headroom at *
    rw [toList_write _ _ _ (by omega), Nat.sub_add_cancel room]

inductive Step where
  | prependByte (byte : UInt8)
  | prependBytes (front : List UInt8)
  | reserve (count : Nat)
  | reset
  | flush

inductive Reply where
  | done
  | count (number : Nat)
  | bytes (flushed : List UInt8)
deriving DecidableEq

namespace Step

def perform : Step → StateM Buffer Reply
  | prependByte byte => Reply.count <$> Sink.prependByte byte
  | prependBytes front => Reply.count <$> Sink.prependBytes front
  | reserve count => modifyGet fun buffer => (.done, buffer.reserve count)
  | reset => modifyGet fun buffer => (.done, buffer.reset)
  | flush => Reply.bytes <$> Buffer.flush

def performPlain : Step → StateM (List UInt8) Reply
  | prependByte byte => modifyGet fun bytes => (.count 1, byte :: bytes)
  | prependBytes front => modifyGet fun bytes => (.count front.length, front ++ bytes)
  | reserve _ => modifyGet fun bytes => (.done, bytes)
  | reset => modifyGet fun _ => (.done, [])
  | flush => modifyGet fun bytes => (.bytes bytes, [])

/-- What becomes of the allocation: the bytes of a prepend go into the headroom that a reservation
has left, and the headroom of an emptied buffer is all of it. -/
def Spares (before after : Buffer) : Step → Prop
  | prependByte byte => ∃ roomy, Reserves 1 before roomy ∧ InPlace [byte] roomy after
  | prependBytes front => ∃ roomy, Reserves front.length before roomy ∧ InPlace front roomy after
  | reserve count => Reserves count before after
  | reset | flush => after.headroom = before.allocation

variable (step : Step) (buffer : Buffer)

theorem perform_eq : ∃ next, step.perform buffer = ((step.performPlain buffer.bytes).1, next) ∧
    next.bytes = (step.performPlain buffer.bytes).2 := by
  cases step with
  | prependByte byte => exact ⟨_, rfl, bytes_prepend [byte] buffer⟩
  | prependBytes front => exact ⟨_, rfl, bytes_prepend front buffer⟩
  | reserve count => exact ⟨_, rfl, bytes_reserve count buffer⟩
  | reset => exact ⟨_, rfl, bytes_reset buffer⟩
  | flush => exact ⟨_, rfl, bytes_reset buffer⟩

theorem allocation_le_perform : buffer.allocation ≤ (step.perform buffer).2.allocation := by
  cases step with
  | prependByte byte =>
    exact (allocation_le_reserve 1 buffer).trans_eq (allocation_prepend [byte] buffer).symm
  | prependBytes front =>
    have grows := allocation_le_reserve front.length buffer
    exact grows.trans_eq (allocation_prepend front buffer).symm
  | reserve count => exact allocation_le_reserve count buffer
  | reset | flush => exact Nat.le_refl _

theorem spares_perform : step.Spares buffer (step.perform buffer).2 := by
  cases step with
  | prependByte byte => exact ⟨_, reserves_reserve 1 buffer, inPlace_prepend [byte] buffer⟩
  | prependBytes front =>
    exact ⟨_, reserves_reserve front.length buffer, inPlace_prepend front buffer⟩
  | reserve count => exact reserves_reserve count buffer
  | reset | flush => rfl

end Step

def performAll (steps : List Step) : StateM Buffer (List Reply) := steps.mapM Step.perform

def performAllPlain (steps : List Step) : StateM (List UInt8) (List Reply) :=
  steps.mapM Step.performPlain

theorem performAll_eq (steps : List Step) (buffer : Buffer) : ∃ last,
    performAll steps buffer = ((performAllPlain steps buffer.bytes).1, last) ∧
      last.bytes = (performAllPlain steps buffer.bytes).2 := by
  induction steps generalizing buffer with
  | nil => exact ⟨buffer, rfl, rfl⟩
  | cons step rest ih =>
    obtain ⟨next, performed, holds⟩ := step.perform_eq buffer
    obtain ⟨last, performedRest, holdsLast⟩ := ih next
    unfold performAll performAllPlain at *
    refine ⟨last, ?_, ?_⟩
    · rw [mapM_state_cons, mapM_state_cons, performed, performedRest, holds]
    · rw [mapM_state_cons, holdsLast, holds]

/-- A buffer of any capacity replies to any run of steps as a plain byte list does and holds the
same bytes after it. No step shrinks the allocation, and one that finds enough headroom stays in the
allocation that there is. -/
theorem performAll_refines (capacity : Nat) (steps : List Step) : ∃ replies buffer bytes,
    performAll steps (withCapacity capacity) = (replies, buffer) ∧
      performAllPlain steps [] = (replies, bytes) ∧
      buffer.bytes = bytes ∧ buffer.release.toList = bytes ∧ buffer.size = bytes.length ∧
      ∀ step : Step,
        buffer.headroom + buffer.size ≤
            (step.perform buffer).2.headroom + (step.perform buffer).2.size ∧
          step.Spares buffer (step.perform buffer).2 := by
  obtain ⟨buffer, performed, holds⟩ := performAll_eq steps (withCapacity capacity)
  rw [bytes_withCapacity] at performed holds
  refine ⟨_, buffer, (performAllPlain steps []).2, performed, rfl, holds, ?_, ?_, ?_⟩
  · rw [toList_release, holds]
  · rw [← length_bytes, holds]
  · intro step
    rw [headroom_add_size, headroom_add_size]
    exact ⟨step.allocation_le_perform buffer, step.spares_perform buffer⟩

-- The capacity is used up by the first byte, and resetting does not give the allocation back.
example : (performAll [.prependByte 3, .prependBytes [1, 2], .flush, .reserve 6, .prependByte 4]
    (withCapacity 1)).1 = [.count 1, .count 2, .bytes [1, 2, 3], .done, .count 1] := by
  decide

end Delegations.Buffer
