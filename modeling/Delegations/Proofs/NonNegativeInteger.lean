import Delegations.NonNegativeInteger
import Delegations.Proofs.VarNumber

/-!
The numbers that elements hold. Main statements: a number is read from exactly its forms, which are
its base-256 digits in one of four widths (`decode_eq_ok_iff`), and it is written in the narrowest of
them (`narrowest_of_widths`).
-/
namespace Delegations.NonNegativeInteger

def Form (n : UInt64) (bytes : List UInt8) : Prop :=
  bytes.length ∈ [1, 2, 4, 8] ∧ BigEndian.decode bytes = n.toNat

def shortest (n : UInt64) : List UInt8 := BigEndian.encode (size n) n.toNat

variable {n : UInt64} {bytes : List UInt8}

theorem decode_lt (width : bytes.length ∈ [1, 2, 4, 8]) : BigEndian.decode bytes < 2 ^ 64 := by
  apply Nat.lt_of_lt_of_le (BigEndian.decode_lt bytes)
  simp only [List.mem_cons, List.not_mem_nil, or_false] at width
  rcases width with width | width | width | width <;> rw [width] <;> decide

theorem decode_eq_ok_iff : decode bytes = .ok n ↔ Form n bytes := by
  unfold decode Form
  by_cases width : bytes.length ∈ [1, 2, 4, 8]
  · have value := VarNumber.toNat_toUInt64 (decode_lt width)
    rw [if_pos width, Except.ok.injEq, ← UInt64.toNat_inj]
    rw [Nat.toUInt64] at value
    rw [value]
    exact (and_iff_right width).symm
  · rw [if_neg width]
    simp [width]

theorem size_eq (n : UInt64) : size n =
    if n.toNat ≤ 0xFF then 1 else if n.toNat ≤ 0xFFFF then 2
    else if n.toNat ≤ 0xFFFFFFFF then 4 else 8 := by
  simp only [size, UInt64.le_iff_toNat_le, UInt64.reduceToNat]

@[simp] theorem length_shortest (n : UInt64) : (shortest n).length = size n :=
  BigEndian.length_encode _ _

theorem form_shortest (n : UInt64) : Form n (shortest n) := by
  have := n.toNat_lt
  refine ⟨?_, ?_⟩
  · rw [length_shortest, size_eq]
    split_ifs <;> decide
  · unfold shortest
    rw [BigEndian.decode_encode, size_eq]
    apply Nat.mod_eq_of_lt
    split_ifs <;> omega

theorem Form.trims (form : Form n bytes) : Trims (shortest n) bytes := by
  have reproduced := BigEndian.encode_decode bytes
  have bound := BigEndian.decode_lt bytes
  rcases form with ⟨width, value⟩
  rw [value] at reproduced bound
  refine ⟨?_, ?_⟩
  · rw [length_shortest, size_eq]
    simp only [List.mem_cons, List.not_mem_nil, or_false] at width
    rcases width with width | width | width | width <;> rw [width] at bound ⊢ <;>
      split_ifs <;> omega
  · intro same
    rw [length_shortest] at same
    unfold shortest
    rw [same, reproduced]

theorem writes_prepend {σ : Type} [Sink σ] {Holds : σ → List UInt8 → Prop}
    (faithful : Sink.Faithful Holds) (n : UInt64) : Sink.Writes Holds (prepend n) (shortest n) :=
  faithful.prependBytes _

theorem exists_decode_iff : (∃ n, decode bytes = .ok n) ↔ bytes.length ∈ [1, 2, 4, 8] := by
  simp only [decode_eq_ok_iff]
  constructor
  · rintro ⟨n, width, _⟩
    exact width
  · intro width
    have value := VarNumber.toNat_toUInt64 (decode_lt width)
    exact ⟨(BigEndian.decode bytes).toUInt64, width, value.symm⟩

theorem decode_eq_error_iff {fault : TlvError} : decode bytes = .error fault ↔
    bytes.length ∉ [1, 2, 4, 8] ∧ fault = .integerLength bytes.length := by
  unfold decode
  by_cases width : bytes.length ∈ [1, 2, 4, 8]
  · simp [width]
  · rw [if_neg width, Except.error.injEq]
    exact eq_comm.trans (and_iff_right width).symm

def wire (n : UInt64) : List UInt8 := written (prepend n)

theorem wire_eq (n : UInt64) : wire n = shortest n :=
  written_eq (writes_prepend Sink.faithful_list n)

/-- Bytes are read if they have one of the four widths, as the number that has them as its base-256
digits. A number is written in front of whatever a buffer holds, as bytes that it is read from, and
no other bytes that it is read from are as few. -/
theorem narrowest_of_widths (n : UInt64) :
    (∀ bytes, (∃ m, decode bytes = .ok m) ↔ bytes.length ∈ [1, 2, 4, 8]) ∧
    (∀ bytes fault, decode bytes = .error fault ↔
      bytes.length ∉ [1, 2, 4, 8] ∧ fault = .integerLength bytes.length) ∧
    (∀ bytes, decode bytes = .ok n → n.toNat = Nat.ofDigits 256 (bytes.reverse.map UInt8.toNat)) ∧
    (∀ buffer : Buffer,
      ∃ next, (prepend n).run buffer = (size n, next) ∧ next.bytes = wire n ++ buffer.bytes) ∧
    (wire n).length = size n ∧ decode (wire n) = .ok n ∧
    ∀ bytes, decode bytes = .ok n →
      (wire n).length ≤ bytes.length ∧ ((wire n).length = bytes.length → wire n = bytes) := by
  rw [wire_eq]
  refine ⟨fun _ => exists_decode_iff, fun _ _ => decode_eq_error_iff, ?_, ?_, length_shortest n, ?_,
    ?_⟩
  · intro bytes read
    have form := decode_eq_ok_iff.mp read
    rw [← BigEndian.decode_eq_ofDigits]
    exact form.2.symm
  · intro buffer
    rw [← length_shortest]
    exact writes_prepend Sink.faithful_buffer n buffer _ rfl
  · exact decode_eq_ok_iff.mpr (form_shortest n)
  · intro bytes read
    exact (decode_eq_ok_iff.mp read).trims

theorem narrowest_of_widths_padded : (0x100 : UInt64).toNat = Nat.ofDigits 256 [0, 1, 0, 0] ∧
    (wire 0x100).length ≤ [0, 0, 1, 0].length ∧ wire 0x100 = [1, 0] := by
  have padded : decode [0, 0, 1, 0] = .ok 0x100 := by decide
  have narrow : decode [1, 0] = .ok 0x100 := by decide
  obtain ⟨_, _, value, _, length, _, narrowest⟩ := narrowest_of_widths 0x100
  have width : (wire 0x100).length = [1, 0].length := length.trans (by decide)
  exact ⟨value _ padded, (narrowest _ padded).1, (narrowest _ narrow).2 width⟩

end Delegations.NonNegativeInteger
