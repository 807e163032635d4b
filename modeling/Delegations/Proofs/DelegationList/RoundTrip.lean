import Delegations.Proofs.DelegationList.Forms
import Delegations.Proofs.DelegationList.Reachable

/-!
Lists written and read again. Main statements: a list is written in its shortest form (`toWire_eq`)
and read back from that (`read_written`), and any other form of it is longer (`Form.trims`).
-/
namespace Delegations.DelegationList

def shortest (type : UInt32) (items : List Delegation) : List UInt8 :=
  Element.shortest type (items.flatMap Delegation.shortest)

variable {list : DelegationList} {type : UInt32}

section
open Sink (Faithful Writes)

variable {σ : Type} [Sink σ] {Holds : σ → List UInt8 → Prop}

theorem writes_prependElement (faithful : Faithful Holds) (type : UInt32)
    (items : List Delegation) :
    Writes Holds (Sink.prependElement type (Sink.prependEach Delegation.prepend items))
      (shortest type items) := by
  apply Element.writes_prependElement faithful
  exact Sink.writes_prependEach (Delegation.writes_prepend faithful) items

theorem run_prepend (faithful : Faithful Holds) (nonempty : list.items ≠ [])
    (accepted : isListType type) {sink : σ} {bytes : List UInt8} (held : Holds sink bytes) :
    ∃ next, (list.prepend type).run sink = .ok (shortest type list.items).length next ∧
      Holds next (shortest type list.items ++ bytes) := by
  obtain ⟨next, run, held⟩ := writes_prependElement faithful type list.items sink bytes held
  refine ⟨next, ?_, held⟩
  have occupied : list.isEmpty = false := by
    unfold isEmpty
    rwa [List.isEmpty_eq_false_iff]
  unfold prepend
  simp only [accepted, occupied, Bool.not_true, Bool.false_eq_true, if_false]
  rw [EStateM.run_modifyGet, run]

end

theorem run_prepend_byteCount (nonempty : list.items ≠ []) (accepted : isListType type) :
    (list.prepend type).run ({} : ByteCount) =
      .ok (shortest type list.items).length ⟨(shortest type list.items).length⟩ := by
  have fresh : ({} : ByteCount).count = ([] : List UInt8).length := rfl
  obtain ⟨⟨total⟩, run, held⟩ := run_prepend Sink.faithful_byteCount nonempty accepted fresh
  rw [List.append_nil] at held
  rw [run, ← held]

theorem toWire_eq (nonempty : list.items ≠ []) (accepted : isListType type) :
    list.toWire type = .ok (shortest type list.items) := by
  obtain ⟨buffer, run, held⟩ := run_prepend Sink.faithful_buffer nonempty accepted
    (Buffer.bytes_withCapacity (shortest type list.items).length)
  unfold toWire
  rw [run_prepend_byteCount nonempty accepted]
  dsimp only
  rw [run]
  dsimp only
  rw [held, List.append_nil]

theorem toWire_empty (empty : list.items = []) (accepted : isListType type) :
    list.toWire type = .error (.format .emptyList) := by
  unfold toWire prepend isEmpty
  simp [accepted, empty]

theorem ne_zero_of_isListType (accepted : isListType type) : type ≠ 0 := by
  rintro rfl
  exact absurd accepted (by decide)

theorem sequence_shortest {items : List Delegation}
    (fits : (items.flatMap Delegation.shortest).length < 2 ^ 64) :
    Sequence Delegation.Form items (items.flatMap Delegation.shortest) := by
  apply Sequence.flatMap
  intro delegation mem
  have := length_le_length_flatMap Delegation.shortest mem
  exact Delegation.form_shortest (by omega)

theorem form_shortest {items : List Delegation} (nonempty : items ≠ [])
    (accepted : isListType type) (fits : (items.flatMap Delegation.shortest).length < 2 ^ 64) :
    Form type items (shortest type items) :=
  ⟨isListType_iff.mp accepted, nonempty, _,
    Element.form_shortest (ne_zero_of_isListType accepted) fits, sequence_shortest fits⟩

theorem Form.trims {items : List Delegation} {bytes : List UInt8} (form : Form type items bytes) :
    Trims (shortest type items) bytes := by
  rcases form with ⟨_, _, value, form, sequence⟩
  exact form.trims (sequence.trims fun _ _ => Delegation.Form.trims)

theorem Form.shortest {items : List Delegation} {bytes : List UInt8}
    (form : Form type items bytes) : Form type items (shortest type items) := by
  rcases form with ⟨accepted, nonempty, value, form, sequence⟩
  have trims : Trims (items.flatMap Delegation.shortest) value :=
    sequence.trims fun _ _ => Delegation.Form.trims
  exact form_shortest nonempty (isListType_iff.mpr accepted)
    (Nat.lt_of_le_of_lt trims.1 form.length_lt)

theorem read_written (nonempty : list.items ≠ []) (accepted : isListType type)
    (fits : (shortest type list.items).length < 2 ^ 64) :
    ∃ element, list.toElement type = .ok element ∧
      ∀ sorted arranged, Arranges list.items sorted arranged →
        ofWire (shortest type list.items) sorted = .ok arranged ∧
          ofElement element sorted = .ok arranged := by
  have bound : (list.items.flatMap Delegation.shortest).length < 2 ^ 64 :=
    Nat.lt_of_le_of_lt (Element.length_le_shortest type _) fits
  have form := form_shortest nonempty accepted bound
  obtain ⟨element, decoded, _⟩ := ofWire_eq_ok_iff_ofElement.mp
    (ofWire_eq_ok_iff.mpr ⟨type, _, form, arranges_placeAll list.items false⟩)
  refine ⟨element, ?_, ?_⟩
  · unfold toElement
    rw [except_bind_eq_ok]
    exact ⟨_, toWire_eq nonempty accepted, mapError_eq_ok_iff.mpr decoded⟩
  · intro sorted arranged arranges
    have read := ofWire_eq_ok_iff.mpr ⟨type, _, form, arranges⟩
    obtain ⟨other, decodedOther, readOther⟩ := ofWire_eq_ok_iff_ofElement.mp read
    cases decoded.symm.trans decodedOther
    exact ⟨read, readOther⟩

/-- A list whose encoding has a size that a length number can hold is read back from it, in its own
order or rearranged. A list that counts as sorted is in order, so that sorting gives it back. -/
theorem round_trip (list : DelegationList) (type : UInt32) (nonempty : list.items ≠ [])
    (accepted : type = TypeNumber.content ∨ type = TypeNumber.forwardingHint)
    (fits : (shortest type list.items).length < 2 ^ 64) :
    ∃ bytes element, bytes = shortest type list.items ∧ list.toWire type = .ok bytes ∧
      list.toElement type = .ok element ∧ ofWire bytes false = .ok ⟨false, list.items⟩ ∧
      ofElement element false = .ok ⟨false, list.items⟩ ∧
      ∃ sorted : List Delegation, sorted.Perm list.items ∧ sorted.Pairwise (· ≤ ·) ∧
        ofWire bytes true = .ok ⟨true, sorted⟩ ∧ ofElement element true = .ok ⟨true, sorted⟩ ∧
          (list.Reachable → list.isSorted → sorted = list.items) := by
  have isList := isListType_iff.mpr accepted
  obtain ⟨element, toElement, read⟩ := read_written nonempty isList fits
  have unsorted : Arranges list.items false ⟨false, list.items⟩ := ⟨rfl, List.Perm.rfl, rfl⟩
  have readUnsorted := read false _ unsorted
  have sorted := arranges_placeAll list.items true
  have readSorted := read true _ sorted
  refine ⟨_, element, rfl, toWire_eq nonempty isList, toElement, readUnsorted.1,
    readUnsorted.2, ?_⟩
  rcases hplaced : placeAll list.items ⟨true, []⟩ with ⟨flag, items⟩
  rw [hplaced] at sorted readSorted
  rcases sorted with ⟨rfl, perm, ordered⟩
  refine ⟨items, perm, ordered, readSorted.1, readSorted.2, ?_⟩
  intro reachable countsAsSorted
  exact Delegation.eq_of_perm_of_ordered perm ordered (reachable.ordered countsAsSorted)

theorem round_trip_repeated : ∃ bytes,
    (⟨false, [⟨300, ⟨[.generic [98]]⟩⟩, ⟨10, ⟨[]⟩⟩, ⟨10, ⟨[]⟩⟩]⟩ : DelegationList).toWire 21 =
        .ok bytes ∧
      ofWire bytes false = .ok ⟨false, [⟨300, ⟨[.generic [98]]⟩⟩, ⟨10, ⟨[]⟩⟩, ⟨10, ⟨[]⟩⟩]⟩ := by
  obtain ⟨bytes, _, _, written, _, read, _⟩ := round_trip
    ⟨false, [⟨300, ⟨[.generic [98]]⟩⟩, ⟨10, ⟨[]⟩⟩, ⟨10, ⟨[]⟩⟩]⟩ 21 nofun (.inl rfl) (by decide +kernel)
  exact ⟨bytes, written, read⟩

/-- Whatever form a list is read from, writing it again succeeds, gives the same list once more, and
is shorter than any other form that it could have been read from. -/
theorem rewritten_shortest {wire : List UInt8} {list : DelegationList}
    (read : ofWire wire false = .ok list) :
    ∃ element short again, Element.decode wire = .ok element ∧
      list.toWire element.type = .ok short ∧ short = shortest element.type list.items ∧
      ofWire short false = .ok again ∧ again = list ∧ again.toWire element.type = .ok short ∧
      short.length ≤ wire.length ∧ (short.length = wire.length → short = wire) := by
  obtain ⟨element, decoded, readElement⟩ := ofWire_eq_ok_iff_ofElement.mp read
  obtain ⟨accepted, items, nonempty, sequence, arranges⟩ := ofElement_eq_ok_iff.mp readElement
  have sameItems : list.items = items := arranges.2.2
  subst sameItems
  -- The bytes themselves are one form of the list, and what is written is the shortest one.
  have form : Form element.type list.items wire := by
    obtain ⟨wellFormed, sameWire⟩ := Element.decode_eq_ok_iff.mp decoded
    refine ⟨isListType_iff.mp accepted, nonempty, element.value, ?_, sequence⟩
    rw [← sameWire]
    exact wellFormed.form
  have written := toWire_eq nonempty accepted
  have again := ofWire_eq_ok_iff.mpr ⟨_, _, form.shortest, arranges⟩
  exact ⟨element, _, list, decoded, written, rfl, again, rfl, written, form.trims⟩

theorem rewritten_shortest_spacious : ∃ type short,
    (⟨false, [⟨10, ⟨[.generic [97]]⟩⟩]⟩ : DelegationList).toWire type = .ok short ∧
      ofWire short false = .ok ⟨false, [⟨10, ⟨[.generic [97]]⟩⟩]⟩ ∧ short.length ≤ 18 := by
  have read : ofWire [30, 253, 0, 14, 31, 12, 30, 2, 0, 10, 7, 3, 8, 1, 97, 99, 1, 0] false =
      .ok ⟨false, [⟨10, ⟨[.generic [97]]⟩⟩]⟩ := by cbv
  obtain ⟨element, short, _, _, written, _, again, rfl, _, shorter, _⟩ := rewritten_shortest read
  exact ⟨element.type, short, written, again, shorter⟩

end Delegations.DelegationList
