import Delegations.Proofs.Sizing

/-!
Lists written into buffers that are in use. Main statement: a list is refused before the buffer is
touched, or else its bytes come in front of those that the buffer holds, whatever these are and
however often the buffer has to grow (`prepend_writes_toWire`).
-/
namespace Delegations.DelegationList

/-- Why a list is not written. Only a list for an accepted type is looked into. -/
inductive Refused (list : DelegationList) (type : UInt32) : ListError → Prop
  | type : type ≠ TypeNumber.content → type ≠ TypeNumber.forwardingHint →
      Refused list type (.usage (.listType type))
  | empty : type = TypeNumber.content ∨ type = TypeNumber.forwardingHint → list.items = [] →
      Refused list type (.format .emptyList)

variable {list : DelegationList} {type : UInt32} {error : ListError}

theorem encoding_eq_error_iff : list.encoding type = .error error ↔ list.Refused type error := by
  refine ⟨?_, ?_⟩
  · intro refused
    unfold encoding at refused
    split at refused
    · rename_i unlisted
      cases refused
      rw [Bool.not_eq_true', ← Bool.not_eq_true, isListType_iff, not_or] at unlisted
      exact .type unlisted.1 unlisted.2
    · rename_i accepted
      rw [Bool.not_eq_true', Bool.not_eq_false, isListType_iff] at accepted
      split at refused
      · rename_i empty
        cases refused
        exact .empty accepted (List.isEmpty_iff.mp empty)
      · cases refused
  · rintro (⟨notContent, notHint⟩ | ⟨accepted, empty⟩)
    · have unlisted : isListType type = false := by
        rw [← Bool.not_eq_true, isListType_iff]
        exact not_or.mpr ⟨notContent, notHint⟩
      simp [encoding, unlisted]
    · simp [encoding, isListType_iff.mpr accepted, isEmpty, empty]

theorem toWire_eq_encoding (list : DelegationList) (type : UInt32) :
    list.toWire type = list.encoding type := by
  cases outcome : list.encoding type with
  | ok wire =>
    obtain ⟨accepted, occupied, rfl⟩ := encoding_eq_ok_iff.mp outcome
    exact toWire_eq occupied accepted
  | error error =>
    have failed := attempt_eq_error_iff.mp (attempt_prepend_of_error outcome ({} : ByteCount))
    unfold toWire
    rw [failed]

/-- An error leaves the buffer as it was, its headroom included. Otherwise the buffer holds the bytes
that the list has in a buffer of its own, and behind them what it held before. -/
theorem prepend_writes_toWire (list : DelegationList) (type : UInt32) :
    (∀ error, list.toWire type = .error error ↔ list.Refused type error) ∧
      ∀ buffer : Buffer,
        match list.toWire type with
        | .error error => attempt (list.prepend type) buffer = (.error error, buffer)
        | .ok wire => ∃ after, attempt (list.prepend type) buffer = (.ok wire.length, after) ∧
            after.bytes = wire ++ buffer.bytes := by
  rw [toWire_eq_encoding]
  refine ⟨fun _ => encoding_eq_error_iff, ?_⟩
  intro buffer
  cases outcome : list.encoding type with
  | error error => exact attempt_prepend_of_error outcome buffer
  | ok wire =>
    obtain ⟨after, performed, holds⟩ :=
      list.prepends_prepend Sink.faithful_buffer type buffer buffer.bytes rfl
    rw [outcome] at performed holds
    exact ⟨after, performed, holds⟩

-- The allocation has room for one more byte, so that what stands in it moves to another on the way.
example : (attempt ((⟨true, [⟨1, ⟨[]⟩⟩]⟩ : DelegationList).prepend 21)
    ((Buffer.withCapacity 2).prepend [9])).2.bytes = [21, 7, 31, 5, 30, 1, 1, 7, 0, 9] := by
  cbv

end Delegations.DelegationList
