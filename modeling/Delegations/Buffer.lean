import Delegations.Sink

/-!
A growing byte buffer that is filled from the back. Main statements: prepending puts the bytes in
front of those already held (`bytes_prepend`), and growing moves nothing (`bytes_reserve`).
-/
namespace Delegations

/-- Written bytes at the end of an allocation, with unused headroom in front of them. -/
structure Buffer where
  storage : Array UInt8
  /-- Where the written bytes begin, which is also the headroom. -/
  start : Nat
  /-- The size that a new allocation takes as long as it suffices. -/
  preferred : Nat
  start_le : start ≤ storage.size

namespace Buffer

/-- The largest packet that a forwarder accepts, which is the headroom of a default buffer. -/
def defaultCapacity : Nat := 8800

def withCapacity (capacity : Nat) : Buffer where
  storage := Array.replicate capacity 0
  start := capacity
  preferred := max capacity 1
  start_le := by simp

def headroom (buffer : Buffer) : Nat := buffer.start

def allocation (buffer : Buffer) : Nat := buffer.storage.size

def size (buffer : Buffer) : Nat := buffer.storage.size - buffer.start

def bytes (buffer : Buffer) : List UInt8 :=
  (buffer.storage.extract buffer.start buffer.storage.size).toList

theorem bytes_eq_drop (buffer : Buffer) :
    buffer.bytes = buffer.storage.toList.drop buffer.start := by
  simp only [bytes, Array.toList_extract, List.extract_eq_take_drop]
  exact List.take_of_length_le (by simp)

@[simp] theorem length_bytes (buffer : Buffer) : buffer.bytes.length = buffer.size := by
  simp [bytes_eq_drop, size]

theorem headroom_add_size (buffer : Buffer) :
    buffer.headroom + buffer.size = buffer.allocation := by
  have := buffer.start_le
  simp only [headroom, size, allocation]
  omega

def grow (newSize : Nat) (buffer : Buffer) : Buffer where
  storage := Array.replicate (newSize - buffer.size) 0 ++
    buffer.storage.extract buffer.start buffer.storage.size
  start := newSize - buffer.size
  preferred := buffer.preferred
  start_le := by simp

/-- Makes room for `count` bytes in front. Where the headroom is too small, the new allocation has
the preferred size if that suffices and twice the needed size otherwise. -/
def reserve (count : Nat) (buffer : Buffer) : Buffer :=
  if buffer.start < count then
    let needed := buffer.size + count
    buffer.grow (if needed ≤ buffer.preferred then buffer.preferred else needed * 2)
  else buffer

def write (storage : Array UInt8) (index : Nat) : List UInt8 → Array UInt8
  | [] => storage
  | byte :: rest => write (storage.setIfInBounds index byte) (index + 1) rest

@[simp] theorem size_write (storage : Array UInt8) (index : Nat) (front : List UInt8) :
    (write storage index front).size = storage.size := by
  induction front generalizing storage index with
  | nil => rfl
  | cons byte rest ih => simp [write, ih]

def prepend (front : List UInt8) (buffer : Buffer) : Buffer :=
  match buffer.reserve front.length with
  | ⟨storage, start, preferred, start_le⟩ =>
    { storage := write storage (start - front.length) front
      start := start - front.length
      preferred
      start_le := by rw [size_write]; omega }

def reset (buffer : Buffer) : Buffer :=
  { buffer with start := buffer.storage.size, start_le := Nat.le_refl _ }

def flush (buffer : Buffer) : List UInt8 × Buffer :=
  (buffer.bytes, buffer.reset)

def release (buffer : Buffer) : Array UInt8 :=
  if buffer.start = 0 then buffer.storage
  else buffer.storage.extract buffer.start buffer.storage.size

@[simp] theorem toList_release (buffer : Buffer) : buffer.release.toList = buffer.bytes := by
  unfold release
  split
  · rename_i full
    rw [bytes_eq_drop, full, List.drop_zero]
  · rfl

@[simp] theorem bytes_withCapacity (capacity : Nat) : (withCapacity capacity).bytes = [] := by
  simp [bytes_eq_drop, withCapacity]

@[simp] theorem bytes_grow (newSize : Nat) (buffer : Buffer) :
    (buffer.grow newSize).bytes = buffer.bytes := by
  rw [bytes_eq_drop, grow, Array.toList_append, Array.toList_replicate, List.drop_left' (by simp)]
  rfl

@[simp] theorem bytes_reserve (count : Nat) (buffer : Buffer) :
    (buffer.reserve count).bytes = buffer.bytes := by
  unfold reserve
  split <;> simp

theorem le_headroom_reserve (count : Nat) (buffer : Buffer) :
    count ≤ (buffer.reserve count).headroom := by
  unfold reserve headroom
  split
  · simp only [grow]
    split <;> omega
  · omega

theorem toList_write (storage : Array UInt8) (index : Nat) (front : List UInt8)
    (fits : index + front.length ≤ storage.size) :
    (write storage index front).toList =
      storage.toList.take index ++ front ++ storage.toList.drop (index + front.length) := by
  induction front generalizing storage index with
  | nil => simp [write]
  | cons byte rest ih =>
    simp only [List.length_cons] at fits
    have inside : index < storage.toList.length := by rw [Array.length_toList]; omega
    rw [write, ih _ _ (by simp; omega), Array.toList_setIfInBounds, List.take_set,
      List.drop_set_of_lt (by omega), List.take_succ_eq_append_getElem inside,
      List.set_append_right _ _ (by rw [List.length_take]; omega), List.length_take,
      Nat.min_eq_left (Nat.le_of_lt inside)]
    simp [Nat.add_assoc, Nat.add_comm 1]

@[simp] theorem bytes_prepend (front : List UInt8) (buffer : Buffer) :
    (buffer.prepend front).bytes = front ++ buffer.bytes := by
  rw [← bytes_reserve front.length buffer]
  have room := le_headroom_reserve front.length buffer
  unfold prepend
  match buffer.reserve front.length, room with
  | ⟨storage, start, preferred, start_le⟩, room =>
    simp only [headroom] at room
    have shift : start - front.length + front.length = start := by omega
    simp only [bytes_eq_drop]
    rw [toList_write _ _ _ (by omega), shift, List.append_assoc, List.drop_left' (by simp; omega)]

@[simp] theorem bytes_reset (buffer : Buffer) : buffer.reset.bytes = [] := by
  simp [bytes_eq_drop, reset]

instance : Sink Buffer where
  prependByte byte := modifyGet fun buffer => (1, buffer.prepend [byte])
  prependBytes front := modifyGet fun buffer => (front.length, buffer.prepend front)
  size := size

end Buffer

end Delegations
