import Delegations.Proofs.Buffer
import Delegations.Proofs.DelegationList.RoundTrip

/-!
Buffers of the right capacity. Main statement: the sizes that are worked out beforehand, by a pass
that only counts or from the two numbers of an element, are those of the bytes that are written, so
that a buffer with that much headroom does not grow and one of just that capacity is filled
(`fills_exactly`).
-/
namespace Delegations

namespace Buffer

/-- The bytes come into the buffer by prepends that each find the headroom they need, so that they
stand in the allocation that there was. -/
inductive Fills (before : Buffer) : List UInt8 → Buffer → Prop
  | nothing : Fills before [] before
  | prepend {back : List UInt8} {middle : Buffer} (front : List UInt8) :
      Fills before back middle → front.length ≤ middle.headroom →
      Fills before (front ++ back) (middle.prepend front)

variable {before after : Buffer} {front bytes : List UInt8}

theorem inPlace_of_room (room : front.length ≤ before.headroom) :
    InPlace front before (before.prepend front) := by
  have placed := inPlace_prepend front before
  rwa [(reserves_reserve front.length before).2.2 room] at placed

theorem Fills.headroom_eq (fills : Fills before bytes after) :
    after.headroom + bytes.length = before.headroom := by
  induction fills with
  | nothing => rfl
  | prepend front _ room ih =>
    have taken := (inPlace_of_room room).1
    rw [List.length_append]
    omega

theorem Fills.allocation_eq (fills : Fills before bytes after) :
    after.allocation = before.allocation := by
  induction fills with
  | nothing => rfl
  | prepend front _ room ih =>
    rw [allocation_prepend, (reserves_reserve front.length _).2.2 room, ih]

theorem Fills.bytes_eq (fills : Fills before bytes after) :
    after.bytes = bytes ++ before.bytes := by
  induction fills with
  | nothing => rfl
  | prepend front _ _ ih => rw [bytes_prepend, ih, List.append_assoc]

theorem Fills.full (fills : Fills (withCapacity bytes.length) bytes after) :
    after.bytes = bytes ∧ after.headroom = 0 := by
  constructor
  · rw [fills.bytes_eq, bytes_withCapacity, List.append_nil]
  · have : after.headroom + bytes.length = bytes.length := fills.headroom_eq
    omega

/-- What is known of the buffer while a step runs: it holds some more bytes than before, and if the
headroom was enough for them, it has not grown. -/
def Filling (before after : Buffer) (bytes : List UInt8) : Prop :=
  after.bytes = bytes ∧ ∃ front, bytes = front ++ before.bytes ∧
    (front.length ≤ before.headroom → Fills before front after)

theorem filling_prepend (filling : Filling before after bytes) (front : List UInt8) :
    Filling before (after.prepend front) (front ++ bytes) := by
  obtain ⟨rfl, back, holds, fills⟩ := filling
  refine ⟨bytes_prepend front after, front ++ back, ?_, ?_⟩
  · rw [holds, List.append_assoc]
  · intro room
    rw [List.length_append] at room
    -- Room for all the bytes is room for those that came first, and they left it to the others.
    have filled := fills (by omega)
    have := filled.headroom_eq
    exact .prepend front filled (by omega)

theorem faithful_filling (before : Buffer) : Sink.Faithful (Filling before) where
  prependByte byte after _ filling := ⟨after.prepend [byte], rfl, filling_prepend filling [byte]⟩
  prependBytes front after _ filling := ⟨after.prepend front, rfl, filling_prepend filling front⟩
  size_eq filling := Sink.faithful_buffer.size_eq filling.1

theorem filling_start (before : Buffer) : Filling before before before.bytes :=
  ⟨rfl, [], rfl, fun _ => .nothing⟩

theorem Filling.fills (filling : Filling before after (front ++ before.bytes))
    (room : front.length ≤ before.headroom) : Fills before front after := by
  obtain ⟨_, other, same, fills⟩ := filling
  obtain rfl := List.append_cancel_right same
  exact fills room

end Buffer

open Buffer (Fills)

theorem Element.fills_buffered (type : UInt32) (value : List UInt8) :
    Fills (Buffer.withCapacity (shortest type value).length) (shortest type value)
      (buffered type value) := by
  have faithful := Buffer.faithful_filling (Buffer.withCapacity (shortest type value).length)
  have writes : Sink.Writes _ (Sink.prependElement type (Sink.prependBytes value)) _ :=
    writes_prependElement faithful (faithful.prependBytes value)
  obtain ⟨after, run, filling⟩ := writes _ _ (Buffer.filling_start _)
  have filled := filling.fills (Nat.le_refl _)
  unfold buffered
  dsimp only
  rw [← length_shortest, run]
  exact filled

theorem DelegationList.fills_run {list : DelegationList} {type : UInt32} {buffer : Buffer}
    (nonempty : list.items ≠ []) (accepted : isListType type)
    (room : (shortest type list.items).length ≤ buffer.headroom) :
    ∃ after, (list.prepend type).run buffer = .ok (shortest type list.items).length after ∧
      Fills buffer (shortest type list.items) after := by
  obtain ⟨after, run, filling⟩ := run_prepend (Buffer.faithful_filling buffer) nonempty accepted
    (Buffer.filling_start buffer)
  exact ⟨after, run, filling.fills room⟩

/-- The pass that counts finds the number of bytes that the pass that writes takes. They fill a
buffer of that capacity without making it grow, and they take up just as much of any buffer that has
the headroom for them. In the same way an element of any type and value fills the buffer that it is
built in. A prepend that makes a buffer grow shows in the allocation, which is larger for it. -/
theorem fills_exactly :
    (∀ (list : DelegationList) (type : UInt32), list.items ≠ [] →
      type = TypeNumber.content ∨ type = TypeNumber.forwardingHint →
      ∃ size, ∃ full : Buffer, (list.prepend type).run ({} : ByteCount) = .ok size ⟨size⟩ ∧
        (list.prepend type).run (Buffer.withCapacity size) = .ok size full ∧ full.size = size ∧
        list.toWire type = .ok full.bytes ∧
        Fills (Buffer.withCapacity size) full.bytes full ∧ full.headroom = 0 ∧
        ∀ buffer : Buffer, size ≤ buffer.headroom → ∃ after : Buffer,
          (list.prepend type).run buffer = .ok size after ∧ Fills buffer full.bytes after ∧
          after.allocation = buffer.allocation ∧ after.headroom + size = buffer.headroom) ∧
    (∀ type value, ∃ capacity,
      capacity = VarNumber.size type.toUInt64 + VarNumber.size value.length.toUInt64 + value.length ∧
      Fills (Buffer.withCapacity capacity) (Element.ofValue type value).wire
        (Element.buffered type value) ∧
      (Element.buffered type value).headroom = 0 ∧ (Element.ofValue type value).value = value) ∧
    ∀ (buffer : Buffer) front, buffer.headroom < front.length →
      buffer.allocation < (buffer.prepend front).allocation := by
  refine ⟨?_, ?_, ?_⟩
  · intro list type nonempty accepted
    rw [← DelegationList.isListType_iff] at accepted
    have counted := DelegationList.run_prepend_byteCount nonempty accepted
    have justEnough : (DelegationList.shortest type list.items).length ≤
        (Buffer.withCapacity (DelegationList.shortest type list.items).length).headroom :=
      Nat.le_refl _
    obtain ⟨full, written, fills⟩ := DelegationList.fills_run nonempty accepted justEnough
    obtain ⟨bytes, noRoom⟩ := fills.full
    refine ⟨_, full, counted, written, ?_, ?_, ?_, noRoom, ?_⟩
    · rw [← Buffer.length_bytes, bytes]
    · rw [bytes]
      exact DelegationList.toWire_eq nonempty accepted
    · rwa [bytes]
    · intro buffer room
      obtain ⟨after, run, within⟩ := DelegationList.fills_run nonempty accepted room
      rw [bytes]
      exact ⟨after, run, within, within.allocation_eq, within.headroom_eq⟩
  · intro type value
    have fills := Element.fills_buffered type value
    refine ⟨_, Element.length_shortest type value, ?_, fills.full.2, ?_⟩
    · rwa [Element.wire_ofValue]
    · rw [Element.ofValue_eq]
  · intro buffer front short
    rw [Buffer.allocation_prepend]
    exact Buffer.allocation_lt_reserve short

theorem fills_exactly_in_use : ∃ after,
    ((⟨true, [⟨1, ⟨[]⟩⟩]⟩ : DelegationList).prepend 21).run
      ((Buffer.withCapacity 12).prepend [9]) = .ok 9 after ∧
        after.allocation = 12 ∧ after.headroom = 2 := by
  obtain ⟨size, _, counted, _, _, _, _, _, fits⟩ :=
    fills_exactly.1 ⟨true, [⟨1, ⟨[]⟩⟩]⟩ 21 (List.cons_ne_nil _ _) (.inl rfl)
  have nine : ((⟨true, [⟨1, ⟨[]⟩⟩]⟩ : DelegationList).prepend 21).run ({} : ByteCount) =
      .ok 9 ⟨9⟩ := by cbv
  cases counted.symm.trans nine
  obtain ⟨after, run, _, allocation, headroom⟩ :=
    fits ((Buffer.withCapacity 12).prepend [9]) (by decide)
  have left : after.headroom + 9 = 11 := headroom
  exact ⟨after, run, allocation, by omega⟩

end Delegations
