import Delegations.Proofs.Text.Hex
import Delegations.Text.Percent

/-!
Percent escapes written and resolved. Main statements: an escaped byte string is resolved to the
bytes that it was written for (`unescape_escape`), and none of its characters divides a text
(`isPlain_of_mem_escape`).
-/
namespace Delegations.Text.Percent

def isPlain (c : Char) : Bool :=
  c == '%' || (c.toNat < 128 && isUnreserved (UInt8.ofNat c.toNat))

theorem isUnreserved_iff {byte : UInt8} : isUnreserved byte ↔
    (0x30 ≤ byte.toNat ∧ byte.toNat ≤ 0x39) ∨ (0x41 ≤ byte.toNat ∧ byte.toNat ≤ 0x5A) ∨
      (0x61 ≤ byte.toNat ∧ byte.toNat ≤ 0x7A) ∨ byte.toNat = 0x2D ∨ byte.toNat = 0x2E ∨
        byte.toNat = 0x5F ∨ byte.toNat = 0x7E := by
  simp [isUnreserved, or_assoc]

theorem lt_of_isUnreserved {byte : UInt8} (unreserved : isUnreserved byte) : byte.toNat < 128 := by
  rw [isUnreserved_iff] at unreserved
  omega

theorem toNat_ofNat_byte (byte : UInt8) : (Char.ofNat byte.toNat).toNat = byte.toNat := by
  have := byte.toNat_lt
  rw [Char.toNat_ofNat, if_pos (Or.inl (by omega))]

theorem isWhiteSpace_of_isPlain {c : Char} (plain : isPlain c) : isWhiteSpace c = false := by
  simp only [isPlain, Bool.or_eq_true, beq_iff_eq, Bool.and_eq_true, decide_eq_true_eq,
    isUnreserved_iff, UInt8.toNat_ofNat'] at plain
  rcases plain with rfl | ⟨ascii, plain⟩
  · decide
  · simp [isWhiteSpace]
    omega

theorem isPlain_of_mem_escapeByte {byte : UInt8} {c : Char} (mem : c ∈ escapeByte byte) :
    isPlain c := by
  have digits : ∀ n < 16, isPlain (Nat.digitChar n).toUpper := by decide
  have := byte.toNat_lt
  unfold escapeByte at mem
  split at mem
  · rename_i unreserved
    obtain rfl := List.mem_singleton.mp mem
    simp [isPlain, toNat_ofNat_byte, lt_of_isUnreserved unreserved, unreserved]
  · simp only [List.mem_cons, List.not_mem_nil, or_false] at mem
    rcases mem with rfl | rfl | rfl
    · decide
    · exact digits _ (by omega)
    · exact digits _ (by omega)

theorem isPlain_of_mem_escape {bytes : List UInt8} {c : Char} (mem : c ∈ escape bytes) :
    isPlain c := by
  obtain ⟨byte, _, mem⟩ := List.mem_flatMap.mp mem
  exact isPlain_of_mem_escapeByte mem

theorem escapeByte_of_isUnreserved {byte : UInt8} (unreserved : isUnreserved byte) :
    escapeByte byte = [Char.ofNat byte.toNat] :=
  if_pos unreserved

theorem utf8_of_isUnreserved {byte : UInt8} (unreserved : isUnreserved byte) (rest : List Char) :
    utf8 (escapeByte byte ++ rest) = byte :: utf8 rest := by
  have ascii := lt_of_isUnreserved unreserved
  rw [← toNat_ofNat_byte] at ascii
  rw [escapeByte_of_isUnreserved unreserved, List.singleton_append, utf8_cons_of_ascii ascii,
    toNat_ofNat_byte, UInt8.ofNat_toNat]

theorem unescapeFrom_of_ne {byte : UInt8} (plain : byte ≠ 0x25) (done rest : List UInt8) :
    unescapeFrom done (byte :: rest) = unescapeFrom (byte :: done) rest := by
  match rest with
  | [] | [_] | _ :: _ :: _ => simp [unescapeFrom, plain]

theorem unescapeFrom_escapeByte (byte : UInt8) (done : List UInt8) (rest : List Char) :
    unescapeFrom done (utf8 (escapeByte byte ++ rest)) =
      unescapeFrom (byte :: done) (utf8 rest) := by
  by_cases unreserved : isUnreserved byte
  · have plain : byte ≠ 0x25 := by
      rintro rfl
      exact absurd unreserved (by decide)
    rw [utf8_of_isUnreserved unreserved, unescapeFrom_of_ne plain]
  · have small := byte.toNat_lt
    have high : Hex.Shows (byte.toNat / 16) _ := ⟨by omega, .inr rfl⟩
    have low : Hex.Shows (byte.toNat % 16) _ := ⟨by omega, .inr rfl⟩
    have whole : 16 * (byte.toNat / 16) + byte.toNat % 16 = byte.toNat := Nat.div_add_mod ..
    simp only [escapeByte, unreserved, Bool.false_eq_true, if_false, List.cons_append,
      List.nil_append]
    rw [utf8_cons_of_ascii (by decide), utf8_cons_of_ascii high.reads.1,
      utf8_cons_of_ascii low.reads.1, unescapeFrom, if_pos (by decide)]
    simp [escaped?, high.reads.2.2, low.reads.2.2, whole]

theorem unescapeFrom_escape (bytes done : List UInt8) :
    unescapeFrom done (utf8 (escape bytes)) = some (done.reverse ++ bytes) := by
  induction bytes generalizing done with
  | nil => simp [escape, unescapeFrom]
  | cons byte rest ih =>
    change unescapeFrom done (utf8 (escapeByte byte ++ escape rest)) = _
    rw [unescapeFrom_escapeByte, ih]
    simp

theorem unescape_escape (bytes : List UInt8) : unescape (utf8 (escape bytes)) = some bytes :=
  unescapeFrom_escape bytes []

theorem utf8_escape_of_isUnreserved {bytes : List UInt8} (unreserved : bytes.all isUnreserved) :
    utf8 (escape bytes) = bytes := by
  induction bytes with
  | nil => rfl
  | cons byte rest ih =>
    obtain ⟨first, others⟩ := by simpa using unreserved
    change utf8 (escapeByte byte ++ escape rest) = _
    rw [utf8_of_isUnreserved first, ih (by simpa using others)]

theorem all_period_escapeByte (byte : UInt8) :
    (escapeByte byte).all (· == '.') = (byte == 0x2E) := by
  by_cases unreserved : isUnreserved byte
  · have same : Char.ofNat byte.toNat = '.' ↔ byte = 0x2E := by
      rw [← Char.toNat_inj, toNat_ofNat_byte, ← UInt8.toNat_inj]
      rfl
    simp [escapeByte_of_isUnreserved unreserved, Bool.beq_eq_decide_eq, same]
  · have other : byte ≠ 0x2E := by
      rintro rfl
      exact unreserved (by decide)
    simp [escapeByte, unreserved, other]

theorem all_period_escape (bytes : List UInt8) :
    (escape bytes).all (· == '.') = bytes.all (· == 0x2E) := by
  simp only [escape, List.all_flatMap, all_period_escapeByte]

end Delegations.Text.Percent
