import Delegations.Proofs.BigEndian
import Delegations.Proofs.Reading
import Delegations.Proofs.Writing
import Delegations.VarNumber

/-!
The forms of a number. Main statements: reading takes exactly a form off the front
(`read_eq_ok_iff`), writing gives a form (`form_shortest`), and any other form of the same number
is longer (`trims_of_form`).
-/
namespace Delegations

/-- The first byte string is the shorter one, unless the two are the same. -/
def Trims (short long : List UInt8) : Prop :=
  short.length ≤ long.length ∧ (short.length = long.length → short = long)

namespace Trims

variable {short long short' long' : List UInt8}

theorem refl (bytes : List UInt8) : Trims bytes bytes := ⟨Nat.le_refl _, fun _ => rfl⟩

theorem nil (bytes : List UInt8) : Trims [] bytes :=
  ⟨Nat.zero_le _, fun h => (List.length_eq_zero_iff.mp h.symm).symm⟩

theorem append (front : Trims short long) (back : Trims short' long') :
    Trims (short ++ short') (long ++ long') := by
  have := front.1
  have := back.1
  refine ⟨by simp only [List.length_append]; omega, ?_⟩
  intro same
  simp only [List.length_append] at same
  rw [front.2 (by omega), back.2 (by omega)]

end Trims

namespace VarNumber

/-- The byte strings that stand for a number, the shortest and the longer ones. -/
inductive Form : Nat → List UInt8 → Prop
  | byte (first : UInt8) : first.toNat < 253 → Form first.toNat [first]
  | two (body : List UInt8) : body.length = 2 → Form (BigEndian.decode body) (253 :: body)
  | four (body : List UInt8) : body.length = 4 → Form (BigEndian.decode body) (254 :: body)
  | eight (body : List UInt8) : body.length = 8 → Form (BigEndian.decode body) (255 :: body)

def shortest (n : UInt64) : List UInt8 :=
  if n < 253 then [n.toUInt8]
  else if n ≤ 0xFFFF then 253 :: BigEndian.encode 2 n.toNat
  else if n ≤ 0xFFFFFFFF then 254 :: BigEndian.encode 4 n.toNat
  else 255 :: BigEndian.encode 8 n.toNat

section
open Sink (Faithful Writes)

variable {σ : Type} [Sink σ] {Holds : σ → List UInt8 → Prop}

theorem writes_prependWide (faithful : Faithful Holds) (first : UInt8) (width : Nat) (n : UInt64) :
    Writes Holds (prependWide first width n) (first :: BigEndian.encode width n.toNat) :=
  (faithful.prependBytes _).andThen (faithful.prependByte first)

theorem writes_prepend (faithful : Faithful Holds) (n : UInt64) :
    Writes Holds (prepend n) (shortest n) := by
  unfold prepend shortest
  split
  · exact faithful.prependByte n.toUInt8
  · split
    · exact writes_prependWide faithful 253 2 n
    · split
      · exact writes_prependWide faithful 254 4 n
      · exact writes_prependWide faithful 255 8 n

end

variable {n m : UInt64} {bytes : List UInt8}

@[simp] theorem length_shortest (n : UInt64) : (shortest n).length = size n := by
  unfold shortest size
  split
  · rfl
  · split
    · simp
    · split <;> simp

theorem size_eq (n : UInt64) : size n =
    if n.toNat < 253 then 1 else if n.toNat ≤ 0xFFFF then 3
    else if n.toNat ≤ 0xFFFFFFFF then 5 else 9 := by
  simp only [size, UInt64.lt_iff_toNat_lt, UInt64.le_iff_toNat_le, UInt64.reduceToNat]

theorem shortest_eq (n : UInt64) : shortest n =
    if n.toNat < 253 then [n.toUInt8] else if n.toNat ≤ 0xFFFF then 253 :: BigEndian.encode 2 n.toNat
    else if n.toNat ≤ 0xFFFFFFFF then 254 :: BigEndian.encode 4 n.toNat
    else 255 :: BigEndian.encode 8 n.toNat := by
  simp only [shortest, UInt64.lt_iff_toNat_lt, UInt64.le_iff_toNat_le, UInt64.reduceToNat]

theorem size_mono (h : n ≤ m) : size n ≤ size m := by
  have := UInt64.le_iff_toNat_le.mp h
  rw [size_eq, size_eq]
  split_ifs <;> omega

theorem form_shortest (n : UInt64) : Form n.toNat (shortest n) := by
  have wide (width : Nat) (fits : n.toNat < 256 ^ width) :
      BigEndian.decode (BigEndian.encode width n.toNat) = n.toNat := by
    rw [BigEndian.decode_encode, Nat.mod_eq_of_lt fits]
  have := n.toNat_lt
  rw [shortest_eq]
  split_ifs with small medium large
  · have same : n.toUInt8.toNat = n.toNat := by
      rw [UInt64.toNat_toUInt8]
      omega
    have form := Form.byte n.toUInt8 (by omega)
    rwa [same] at form
  · have form := Form.two _ (BigEndian.length_encode 2 n.toNat)
    rwa [wide 2 (by omega)] at form
  · have form := Form.four _ (BigEndian.length_encode 4 n.toNat)
    rwa [wide 4 (by omega)] at form
  · have form := Form.eight _ (BigEndian.length_encode 8 n.toNat)
    rwa [wide 8 (by omega)] at form

theorem lt_of_form {n : Nat} (form : Form n bytes) : n < 2 ^ 64 := by
  cases form with
  | byte first small => omega
  | two body width | four body width | eight body width =>
    have := BigEndian.decode_lt body
    rw [width] at this
    omega

theorem trims_of_form (form : Form n.toNat bytes) : Trims (shortest n) bytes := by
  unfold Trims
  rw [length_shortest, size_eq, shortest_eq]
  generalize value : n.toNat = k at form ⊢
  cases form with
  | byte first small =>
    have same : n.toUInt8 = first := by
      apply UInt8.toNat_inj.mp
      rw [UInt64.toNat_toUInt8, value]
      omega
    rw [if_pos small, if_pos small, same]
    exact ⟨Nat.le_refl _, fun _ => rfl⟩
  | two body width | four body width | eight body width =>
    have reproduced := BigEndian.encode_decode body
    have := BigEndian.decode_lt body
    rw [width] at reproduced this
    rw [reproduced, List.length_cons, width]
    split_ifs <;> simp <;> omega

theorem form_cons_iff {n : Nat} {first : UInt8} {body : List UInt8} : Form n (first :: body) ↔
    if first < 253 then body = [] ∧ first.toNat = n
    else body.length = 1 <<< (first.toNat - 252) ∧ BigEndian.decode body = n := by
  simp only [UInt8.lt_iff_toNat_lt, UInt8.reduceToNat]
  constructor
  · intro form
    cases form with
    | byte first small =>
      rw [if_pos small]
      exact ⟨rfl, rfl⟩
    | two body width | four body width | eight body width => exact ⟨width, rfl⟩
  · split
    · rename_i small
      rintro ⟨rfl, rfl⟩
      exact Form.byte first small
    · rename_i announces
      rintro ⟨width, rfl⟩
      have := first.toNat_lt
      obtain h | h | h : first.toNat = 253 ∨ first.toNat = 254 ∨ first.toNat = 255 := by omega
      · rw [h] at width
        rw [show first = 253 from UInt8.toNat_inj.mp h]
        exact Form.two body width
      · rw [h] at width
        rw [show first = 254 from UInt8.toNat_inj.mp h]
        exact Form.four body width
      · rw [h] at width
        rw [show first = 255 from UInt8.toNat_inj.mp h]
        exact Form.eight body width

theorem Form.length_pos {n : Nat} (form : Form n bytes) : 0 < bytes.length := by
  cases form <;> simp

theorem not_form_nil {n : Nat} : ¬Form n [] := nofun

theorem toNat_toUInt64 {n : Nat} (fits : n < 2 ^ 64) : n.toUInt64.toNat = n :=
  UInt64.toNat_ofNat_of_lt' fits

theorem toNat_ofNat_of_form {n : Nat} (form : Form n bytes) : (UInt64.ofNat n).toNat = n :=
  toNat_toUInt64 (lt_of_form form)

variable {cursor next : Cursor}

theorem reads_of_read (h : read cursor = .ok n next) :
    ∃ bytes, Form n.toNat bytes ∧ cursor.Reads bytes next := by
  unfold read at h
  obtain ⟨first, rest, readFirst, h⟩ := bind_eq_ok.mp h
  have readsFirst := Cursor.u8_eq_ok_iff.mp (adaptExcept_eq_ok.mp readFirst)
  split at h
  · rename_i small
    cases h
    refine ⟨[first], form_cons_iff.mpr ?_, readsFirst⟩
    rw [if_pos small]
    exact ⟨rfl, (UInt8.toNat_toUInt64 first).symm⟩
  · rename_i announces
    obtain ⟨value, last, readBody, h⟩ := bind_eq_ok.mp h
    obtain ⟨body, width, rfl, readsBody⟩ :=
      Cursor.number_eq_ok_iff.mp (adaptExcept_eq_ok.mp readBody)
    have form : Form (BigEndian.decode body) (first :: body) := by
      rw [form_cons_iff, if_neg announces]
      exact ⟨width, rfl⟩
    cases h
    refine ⟨first :: body, ?_, Cursor.reads_append.mpr ⟨rest, readsFirst, readsBody⟩⟩
    rwa [toNat_ofNat_of_form form]

theorem read_of_reads (form : Form n.toNat bytes) (reads : cursor.Reads bytes next) :
    read cursor = .ok n next := by
  cases bytes with
  | nil => exact absurd form not_form_nil
  | cons first body =>
    change cursor.Reads ([first] ++ body) next at reads
    obtain ⟨rest, readsFirst, readsBody⟩ := Cursor.reads_append.mp reads
    unfold read
    refine bind_eq_ok.mpr ⟨first, rest, ?_, ?_⟩
    · exact adaptExcept_eq_ok.mpr (Cursor.u8_eq_ok_iff.mpr readsFirst)
    · rw [form_cons_iff] at form
      split at form
      · rename_i small
        obtain ⟨rfl, value⟩ := form
        obtain rfl := Cursor.reads_nil.mp readsBody
        have same : first.toUInt64 = n := by
          apply UInt64.toNat_inj.mp
          rw [UInt8.toNat_toUInt64, value]
        rw [if_pos small, same]
        rfl
      · rename_i announces
        obtain ⟨width, value⟩ := form
        rw [if_neg announces]
        refine bind_eq_ok.mpr ⟨n.toNat, next, ?_, ?_⟩
        · apply adaptExcept_eq_ok.mpr
          exact Cursor.number_eq_ok_iff.mpr ⟨body, width, value, readsBody⟩
        · rw [UInt64.ofNat_toNat]
          rfl

theorem read_eq_ok_iff : read cursor = .ok n next ↔
    ∃ bytes, Form n.toNat bytes ∧ cursor.Reads bytes next := by
  refine ⟨reads_of_read, ?_⟩
  intro h
  rcases h with ⟨bytes, form, reads⟩
  exact read_of_reads form reads

theorem readType_eq_ok_iff {type : UInt32} : readType cursor = .ok type next ↔
    type ≠ 0 ∧ ∃ bytes, Form type.toNat bytes ∧ cursor.Reads bytes next := by
  unfold readType
  constructor
  · intro h
    obtain ⟨n, rest, readNumber, h⟩ := bind_eq_ok.mp h
    obtain ⟨bytes, form, reads⟩ := read_eq_ok_iff.mp readNumber
    split at h
    · cases h
    · rename_i inRange
      cases h
      simp only [Bool.or_eq_true, decide_eq_true_eq, not_or, UInt64.lt_iff_toNat_lt,
        ← UInt64.toNat_inj, UInt64.reduceToNat] at inRange
      have same : n.toUInt32.toNat = n.toNat := by
        rw [UInt64.toNat_toUInt32]
        omega
      refine ⟨?_, bytes, ?_, reads⟩
      · intro zero
        rw [zero] at same
        exact inRange.1 same.symm
      · rwa [same]
  · rintro ⟨nonzero, bytes, form, reads⟩
    refine bind_eq_ok.mpr ⟨type.toUInt64, next, read_eq_ok_iff.mpr ⟨bytes, ?_, reads⟩, ?_⟩
    · rwa [UInt32.toNat_toUInt64]
    · have := type.toNat_lt
      have := mt UInt32.toNat_inj.mp nonzero
      rw [if_neg]
      · rw [UInt32.toUInt32_toUInt64]
        rfl
      · simp only [Bool.or_eq_true, decide_eq_true_eq, not_or, UInt64.lt_iff_toNat_lt,
          ← UInt64.toNat_inj, UInt64.reduceToNat, UInt32.toNat_toUInt64]
        exact ⟨this, by omega⟩

end VarNumber

end Delegations
