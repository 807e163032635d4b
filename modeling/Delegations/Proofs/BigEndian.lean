import Mathlib
import Delegations.Cursor

/-!
Big-endian digits and the numbers that they denote. Main statements: `decode_encode` reads back what
was written, up to the width, and `encode_decode` says that every byte string is the writing of its
value.
-/
namespace Delegations.BigEndian

@[simp] theorem length_encode (width n : Nat) : (encode width n).length = width := by
  induction width with
  | zero => rfl
  | succ width ih => simp [encode, ih]

theorem encode_succ (width n : Nat) :
    encode (width + 1) n = UInt8.ofNat (n / 256 ^ width) :: encode width n := by
  have base : 2 ^ (8 * width) = 256 ^ width := Nat.pow_mul 2 8 width
  rw [encode, Nat.shiftRight_eq_div_pow, base]

theorem foldl_digits (bytes : List UInt8) (n : Nat) :
    bytes.foldl (fun n b => 256 * n + b.toNat) n = n * 256 ^ bytes.length + decode bytes := by
  induction bytes generalizing n with
  | nil => simp [decode]
  | cons b bytes ih =>
    simp only [decode, List.foldl_cons, List.length_cons, Nat.pow_succ]
    rw [ih, ih (256 * 0 + b.toNat)]
    simp only [Nat.mul_zero, Nat.zero_add, Nat.add_mul]
    rw [Nat.mul_comm 256 n, Nat.mul_assoc, Nat.mul_comm 256, Nat.add_assoc]

theorem decode_cons (b : UInt8) (bytes : List UInt8) :
    decode (b :: bytes) = b.toNat * 256 ^ bytes.length + decode bytes := by
  rw [decode, List.foldl_cons, foldl_digits]
  simp

theorem decode_eq_ofDigits (bytes : List UInt8) :
    decode bytes = Nat.ofDigits 256 (bytes.reverse.map UInt8.toNat) := by
  induction bytes with
  | nil => rfl
  | cons b bytes ih =>
    rw [decode_cons, ih, List.reverse_cons, List.map_append, Nat.ofDigits_append, List.length_map,
      List.length_reverse, List.map_singleton, Nat.ofDigits_singleton, Nat.add_comm, Nat.mul_comm]

theorem decode_lt (bytes : List UInt8) : decode bytes < 256 ^ bytes.length := by
  induction bytes with
  | nil => decide
  | cons b bytes ih =>
    rw [decode_cons, List.length_cons, Nat.pow_succ]
    have hb : b.toNat + 1 ≤ 256 := b.toNat_lt
    have := Nat.mul_le_mul_right (256 ^ bytes.length) hb
    rw [Nat.add_mul] at this
    omega

theorem decode_encode (width n : Nat) : decode (encode width n) = n % 256 ^ width := by
  induction width with
  | zero => simp [encode, decode, Nat.mod_one]
  | succ width ih =>
    rw [encode_succ, decode_cons, ih, length_encode, UInt8.toNat_ofNat', Nat.add_comm,
      Nat.mul_comm (n / 256 ^ width % 2 ^ 8)]
    exact (Nat.mod_mul (b := 2 ^ 8)).symm

theorem encode_decode (bytes : List UInt8) : encode bytes.length (decode bytes) = bytes := by
  suffices h : ∀ k, encode bytes.length (k * 256 ^ bytes.length + decode bytes) = bytes by
    simpa using h 0
  induction bytes with
  | nil => intro k; rfl
  | cons b bytes ih =>
    intro k
    have hlt := decode_lt bytes
    have hpos : 0 < 256 ^ bytes.length := Nat.pow_pos (by decide)
    have hsplit : k * 256 ^ (b :: bytes).length + decode (b :: bytes) =
        (k * 256 + b.toNat) * 256 ^ bytes.length + decode bytes := by
      rw [decode_cons, List.length_cons, Nat.pow_succ, Nat.add_mul, Nat.mul_comm _ 256,
        ← Nat.mul_assoc, Nat.add_assoc]
    rw [hsplit, List.length_cons, encode_succ, ih (k * 256 + b.toNat)]
    congr 1
    rw [Nat.add_comm, Nat.add_mul_div_right _ _ hpos, Nat.div_eq_of_lt hlt, Nat.zero_add]
    apply UInt8.toNat_inj.mp
    rw [UInt8.toNat_ofNat', Nat.add_comm, Nat.add_mul_mod_self_right]
    exact Nat.mod_eq_of_lt b.toNat_lt

end Delegations.BigEndian
