import Delegations.Proofs.Framing

/-!
How far an element reaches. Main statement: whether an element is read depends on its own bytes, on
all of them and on nothing behind them (`read_local`).
-/
namespace Delegations

theorem cut_append {first second front back : List UInt8}
    (parts : first ++ second = front ++ back) :
    (∃ rest, rest ≠ [] ∧ first = front ++ rest) ∨
      ∃ later, front = first ++ later ∧ second = later ++ back := by
  rcases List.append_eq_append_iff.mp parts with ⟨later, whole, rest⟩ | ⟨rest, whole, later⟩
  · exact .inr ⟨later, whole, rest⟩
  · by_cases atEnd : rest = []
    · refine .inr ⟨[], ?_, ?_⟩
      · rw [whole, atEnd, List.append_nil, List.append_nil]
      · rw [later, atEnd, List.nil_append, List.nil_append]
    · exact .inl ⟨rest, atEnd, whole⟩

namespace VarNumber

/-- The first byte of a form tells how many there are, so that a read of fewer stops short. -/
theorem Form.stops {n : Nat} {front back : List UInt8} (form : Form n (front ++ back))
    (cut : back ≠ []) :
    ∃ moved left fault, front = moved ++ left ∧ Stops moved left (.endOfInput fault) := by
  cases front with
  | nil => exact ⟨[], [], _, rfl, .atEnd⟩
  | cons first body =>
    rw [List.cons_append, form_cons_iff] at form
    split at form
    · exact absurd form.1 (List.append_ne_nil_of_right_ne_nil body cut)
    · rename_i announces
      simp only [UInt8.lt_iff_toNat_lt, UInt8.reduceToNat, not_lt] at announces
      have width := form.1
      have := List.length_pos_iff.mpr cut
      rw [List.length_append] at width
      exact ⟨[first], body, _, rfl, .short first body announces (by omega)⟩

end VarNumber

namespace Element

variable {element : Element} {front back input : List UInt8} {used : Nat}

theorem WellFormed.two_le_length_wire (wellFormed : element.WellFormed) :
    2 ≤ element.wire.length := by
  rcases wellFormed with ⟨_, typeBytes, lengthBytes, formType, formLength, header⟩
  have := formType.length_pos
  have := formLength.length_pos
  rw [wire, header, List.length_append, List.length_append]
  omega

inductive CutShort : TlvError → Prop
  | endOfInput (fault : EndOfInput) : CutShort (.endOfInput fault)
  | lengthExceedsInput (length : UInt64) (remaining : Nat) :
      CutShort (.lengthExceedsInput length remaining)

theorem fault_of_cut (wellFormed : element.WellFormed) (parts : element.wire = front ++ back)
    (cut : back ≠ []) : ∃ fault, Fault front fault ∧ CutShort fault := by
  rcases wellFormed with ⟨nonzero, typeBytes, lengthBytes, formType, formLength, header⟩
  rw [wire, header, List.append_assoc] at parts
  rcases cut_append parts with ⟨rest, inside, rfl⟩ | ⟨behindType, rfl, behind⟩
  · obtain ⟨moved, left, fault, rfl, stops⟩ := formType.stops inside
    exact ⟨_, .type stops, .endOfInput fault⟩
  rcases cut_append behind with ⟨rest, inside, rfl⟩ | ⟨behindLength, rfl, value⟩
  · obtain ⟨moved, left, fault, rfl, stops⟩ := formLength.stops inside
    exact ⟨_, .length nonzero formType stops, .endOfInput fault⟩
  · have length := VarNumber.toNat_ofNat_of_form formLength
    have := List.length_pos_iff.mpr cut
    have short : behindLength.length < (UInt64.ofNat element.value.length).toNat := by
      rw [length, value, List.length_append]
      omega
    rw [← length] at formLength
    have exceeds := Fault.lengthExceedsInput behindLength nonzero formType formLength short
    exact ⟨_, exceeds, .lengthExceedsInput _ _⟩

theorem read_append (wellFormed : element.WellFormed) (others : List UInt8) :
    read (element.wire ++ others) = .ok (element, element.wire.length) :=
  read_eq_ok_iff.mpr ⟨wellFormed, rfl, others, rfl⟩

theorem decode_append (wellFormed : element.WellFormed) {others : List UInt8}
    (trailing : others ≠ []) :
    decode (element.wire ++ others) = .error (.trailingBytes others.length) := by
  have length : (element.wire ++ others).length = element.wire.length + others.length :=
    List.length_append
  have := List.length_pos_iff.mpr trailing
  rw [decode_of_read (read_append wellFormed others), if_pos (by omega), length,
    Nat.add_sub_cancel_left]

/-- An element is read from the bytes that it is written as, and nothing behind them counts. Where
some of them are missing, neither it nor another one is read, for want of bytes. So decoded elements
are told apart by their bytes, and one that was built is decoded from its own if its type is in range
and a length number can say how long its value is. -/
theorem read_local :
    (∀ input element used, read input = .ok (element, used) →
      2 ≤ used ∧ used ≤ input.length ∧ element.wire = input.take used ∧
      element.value <:+ element.wire ∧ decode element.wire = .ok element ∧
      (∀ others, read (input.take used ++ others) = .ok (element, used) ∧
        (others ≠ [] →
          decode (input.take used ++ others) = .error (.trailingBytes others.length))) ∧
      ∀ front, front <+: input.take used → front ≠ input.take used →
        ∃ fault, read front = .error fault ∧ CutShort fault) ∧
    (∀ input input' element element', decode input = .ok element → decode input' = .ok element' →
      (element = element' ↔ element.wire = element'.wire)) ∧
    ∀ type value, type ≠ 0 → value.length < 2 ^ 64 →
      decode (ofValue type value).wire = .ok (ofValue type value) := by
  refine ⟨?_, ?_, ?_⟩
  · intro input element used found
    obtain ⟨wellFormed, rfl, rest, rfl⟩ := read_eq_ok_iff.mp found
    rw [List.take_left]
    refine ⟨wellFormed.two_le_length_wire, by simp, rfl, List.suffix_append _ _,
      decode_eq_ok_iff.mpr ⟨wellFormed, rfl⟩, ?_, ?_⟩
    · intro others
      exact ⟨read_append wellFormed others, decode_append wellFormed⟩
    · rintro front ⟨back, parts⟩ shorter
      have cut : back ≠ [] := by
        rintro rfl
        rw [List.append_nil] at parts
        exact shorter parts
      obtain ⟨fault, faulty, short⟩ := fault_of_cut wellFormed parts.symm cut
      exact ⟨fault, read_eq_error_iff.mpr faulty, short⟩
  · intro input input' element element' decoded decoded'
    obtain ⟨_, rfl⟩ := decode_eq_ok_iff.mp decoded
    obtain ⟨_, rfl⟩ := decode_eq_ok_iff.mp decoded'
    constructor
    · exact congrArg wire
    · intro same
      rw [same, decoded'] at decoded
      exact (Except.ok.inj decoded).symm
  · intro type value nonzero fits
    exact decode_eq_ok_iff.mpr ⟨wellFormed_ofValue nonzero fits, rfl⟩

theorem read_local_spacious : (∃ fault, read [253, 0, 8, 253, 0] = .error fault ∧ CutShort fault) ∧
    decode [253, 0, 8, 253, 0, 1, 97, 5, 6] = .error (.trailingBytes 2) ∧
    decode (ofValue 253 [97]).wire = .ok (ofValue 253 [97]) := by
  have found : read [253, 0, 8, 253, 0, 1, 97, 255] =
      .ok (⟨8, [253, 0, 8, 253, 0, 1], [97]⟩, 7) := by cbv
  obtain ⟨_, _, _, _, _, follows, cut⟩ := read_local.1 _ _ _ found
  exact ⟨cut _ (by decide) (by decide), (follows [5, 6]).2 (List.cons_ne_nil _ _),
    read_local.2.2 253 [97] (by decide) (by decide)⟩

end Element

end Delegations
