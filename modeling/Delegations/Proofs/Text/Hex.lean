import Mathlib
import Delegations.Text.Hex
import Delegations.Text.Basic

/-!
Hexadecimal digits written and read. Main statements: whatever white space is put between the digits
of some bytes, and in whichever case the letters among them are, a lawful codec reads these bytes
back (`Codec.Lawful.decode_of_respells`), and the codec of the program is lawful (`lawful_codec`).
-/
namespace Delegations.Text

@[simp] theorem utf8_nil : utf8 [] = [] := rfl

theorem utf8_cons (c : Char) (text : List Char) :
    utf8 (c :: text) = String.utf8EncodeChar c ++ utf8 text :=
  List.flatMap_cons

theorem utf8EncodeChar_of_ascii {c : Char} (ascii : c.toNat < 128) :
    String.utf8EncodeChar c = [UInt8.ofNat c.toNat] := by
  change c.val.toNat < 128 at ascii
  rw [String.utf8EncodeChar, if_pos (by omega)]
  rfl

theorem utf8_cons_of_ascii {c : Char} (ascii : c.toNat < 128) (text : List Char) :
    utf8 (c :: text) = UInt8.ofNat c.toNat :: utf8 text := by
  rw [utf8_cons, utf8EncodeChar_of_ascii ascii, List.singleton_append]

namespace Hex

/-- The character is the digit of that value, in either case. -/
def Shows (n : Nat) (c : Char) : Prop :=
  n < 16 ∧ (c = Nat.digitChar n ∨ c = (Nat.digitChar n).toUpper)

theorem Shows.reads {n : Nat} {c : Char} (shows : Shows n c) :
    c.toNat < 128 ∧ isWhiteSpace c = false ∧ digit? (UInt8.ofNat c.toNat) = some n := by
  have lower : ∀ n < 16, (Nat.digitChar n).toNat < 128 ∧ isWhiteSpace (Nat.digitChar n) = false ∧
      digit? (UInt8.ofNat (Nat.digitChar n).toNat) = some n := by
    decide
  have upper : ∀ n < 16, (Nat.digitChar n).toUpper.toNat < 128 ∧
      isWhiteSpace (Nat.digitChar n).toUpper = false ∧
        digit? (UInt8.ofNat (Nat.digitChar n).toUpper.toNat) = some n := by
    decide
  obtain ⟨small, rfl | rfl⟩ := shows
  · exact lower n small
  · exact upper n small

def halves (bytes : List UInt8) : List Nat :=
  bytes.flatMap fun byte => [byte.toNat / 16, byte.toNat % 16]

theorem halves_lt (bytes : List UInt8) : ∀ n ∈ halves bytes, n < 16 := by
  intro n mem
  obtain ⟨byte, _, mem⟩ := List.mem_flatMap.mp mem
  have := byte.toNat_lt
  simp only [List.mem_cons, List.not_mem_nil, or_false] at mem
  omega

theorem encode_eq_map (bytes : List UInt8) : encode bytes = (halves bytes).map Nat.digitChar := by
  simp [encode, halves, List.map_flatMap]

def SameDigit (c d : Char) : Prop := d = c ∨ d = c.toUpper

/-- What is assumed of a codec: two lower-case digits for each byte, and a reader that inverts the
writer and accepts both cases. -/
structure Codec.Lawful (codec : Codec) : Prop where
  encode_eq (bytes : List UInt8) : codec.encode bytes =
    bytes.flatMap fun byte => [Nat.digitChar (byte.toNat / 16), Nat.digitChar (byte.toNat % 16)]
  decode_encode (bytes : List UInt8) (digits : List Char) :
    List.Forall₂ SameDigit (codec.encode bytes) digits → codec.decode (utf8 digits) = .ok bytes

/-- White space may be put in anywhere, and any letter may be in upper case. -/
inductive Respells : List Char → List Char → Prop
  | nil : Respells [] []
  | blank {c : Char} {digits shown : List Char} :
      isWhiteSpace c → Respells digits shown → Respells digits (c :: shown)
  | digit {c d : Char} {digits shown : List Char} :
      SameDigit c d → Respells digits shown → Respells (c :: digits) (d :: shown)

theorem respells_nil_cons {c : Char} {shown : List Char} :
    Respells [] (c :: shown) ↔ isWhiteSpace c ∧ Respells [] shown := by
  constructor
  · rintro (_ | ⟨white, rest⟩)
    exact ⟨white, rest⟩
  · rintro ⟨white, rest⟩
    exact .blank white rest

theorem respells_cons_cons {c d : Char} {digits shown : List Char} :
    Respells (c :: digits) (d :: shown) ↔ (isWhiteSpace d ∧ Respells (c :: digits) shown) ∨
      (SameDigit c d ∧ Respells digits shown) := by
  constructor
  · rintro (_ | ⟨white, rest⟩ | ⟨cased, rest⟩)
    · exact .inl ⟨white, rest⟩
    · exact .inr ⟨cased, rest⟩
  · rintro (⟨white, rest⟩ | ⟨cased, rest⟩)
    · exact .blank white rest
    · exact .digit cased rest

instance (c d : Char) : Decidable (SameDigit c d) := inferInstanceAs (Decidable (_ ∨ _))

instance Respells.decidable : (digits shown : List Char) → Decidable (Respells digits shown)
  | [], [] => .isTrue .nil
  | _ :: _, [] => .isFalse nofun
  | [], _ :: shown =>
    have := decidable [] shown
    decidable_of_iff _ respells_nil_cons.symm
  | c :: digits, _ :: shown =>
    have := decidable (c :: digits) shown
    have := decidable digits shown
    decidable_of_iff _ respells_cons_cons.symm

theorem Respells.sameDigits {digits shown : List Char} (respells : Respells digits shown)
    (solid : ∀ c ∈ digits, isWhiteSpace c = false ∧ isWhiteSpace c.toUpper = false) :
    List.Forall₂ SameDigit digits (shown.filter (!isWhiteSpace ·)) := by
  induction respells with
  | nil => exact .nil
  | blank white _ ih => simpa [white] using ih solid
  | @digit c d _ _ same _ ih =>
    obtain ⟨first, solid⟩ := List.forall_mem_cons.mp solid
    have dark : isWhiteSpace d = false := by
      obtain rfl | rfl := same
      · exact first.1
      · exact first.2
    rw [List.filter_cons_of_pos (by simp [dark])]
    exact .cons same (ih solid)

theorem solid_of_mem_encode {bytes : List UInt8} :
    ∀ c ∈ encode bytes, isWhiteSpace c = false ∧ isWhiteSpace c.toUpper = false := by
  rw [encode_eq_map, List.forall_mem_map]
  intro n mem
  have small := halves_lt bytes n mem
  have lower : Shows n (Nat.digitChar n) := ⟨small, .inl rfl⟩
  have upper : Shows n (Nat.digitChar n).toUpper := ⟨small, .inr rfl⟩
  exact ⟨lower.reads.2.1, upper.reads.2.1⟩

theorem shows_of_sameDigits {values : List Nat} {digits : List Char}
    (small : ∀ n ∈ values, n < 16)
    (same : List.Forall₂ SameDigit (values.map Nat.digitChar) digits) :
    List.Forall₂ Shows values digits := by
  induction values generalizing digits with
  | nil =>
    cases same
    exact .nil
  | cons n rest ih =>
    obtain _ | ⟨first, same⟩ := same
    obtain ⟨bound, small⟩ := List.forall_mem_cons.mp small
    exact .cons ⟨bound, first⟩ (ih small same)

theorem length_utf8_of_shows {values : List Nat} {digits : List Char}
    (shows : List.Forall₂ Shows values digits) : (utf8 digits).length = values.length := by
  induction shows with
  | nil => rfl
  | cons first _ ih => simp [utf8_cons_of_ascii first.reads.1, ih]

theorem readPairs_of_shows {bytes : List UInt8} {digits : List Char}
    (shows : List.Forall₂ Shows (halves bytes) digits) (position : Nat) (done : List UInt8) :
    readPairs position done (utf8 digits) = .ok (done.reverse ++ bytes) := by
  induction bytes generalizing digits position done with
  | nil =>
    cases shows
    simp [readPairs]
  | cons byte rest ih =>
    obtain _ | ⟨high, _ | ⟨low, shows⟩⟩ := shows
    have whole : 16 * (byte.toNat / 16) + byte.toNat % 16 = byte.toNat := Nat.div_add_mod ..
    rw [utf8_cons_of_ascii high.reads.1, utf8_cons_of_ascii low.reads.1, readPairs,
      high.reads.2.2, low.reads.2.2]
    simp [whole, ih shows]

theorem decode_of_shows {bytes : List UInt8} {digits : List Char}
    (shows : List.Forall₂ Shows (halves bytes) digits) : decode (utf8 digits) = .ok bytes := by
  have even : (halves bytes).length = 2 * bytes.length := by
    simp [halves, List.length_flatMap, Nat.mul_comm]
  rw [decode, length_utf8_of_shows shows, even, if_pos (by omega)]
  exact readPairs_of_shows shows 0 []

theorem lawful_codec : codec.Lawful where
  encode_eq _ := rfl
  decode_encode bytes digits same := by
    change List.Forall₂ SameDigit (encode bytes) digits at same
    rw [encode_eq_map] at same
    change (decode (utf8 digits)).mapError Fault.message = .ok bytes
    rw [decode_of_shows (shows_of_sameDigits (halves_lt bytes) same)]
    rfl

theorem Codec.Lawful.decode_of_respells {codec : Codec} (lawful : codec.Lawful)
    {bytes : List UInt8} {shown : List Char} (respells : Respells (codec.encode bytes) shown) :
    codec.decode (utf8 (shown.filter (!isWhiteSpace ·))) = .ok bytes := by
  have written : codec.encode bytes = Hex.encode bytes := lawful.encode_eq bytes
  have same := respells.sameDigits (written ▸ solid_of_mem_encode)
  exact lawful.decode_encode bytes _ same

end Hex

end Delegations.Text
