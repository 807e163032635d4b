import Delegations.Proofs.DelegationList.RoundTrip

/-!
The element that a list is written into. Main statement: its value is made up of what the
delegations are written as one by one, and it splits into these again
(`toElement_splits_into_items`).
-/
namespace Delegations.DelegationList

variable {list : DelegationList} {type : UInt32}

theorem toElement_eq (nonempty : list.items ≠ []) (accepted : isListType type)
    (fits : (list.items.flatMap Delegation.wire).length < 2 ^ 64) :
    list.toElement type = .ok (Element.ofValue type (list.items.flatMap Delegation.wire)) := by
  rw [funext Delegation.wire_eq] at *
  have wellFormed := Element.wellFormed_ofValue (ne_zero_of_isListType accepted) fits
  have decoded := Element.decode_eq_ok_iff.mpr ⟨wellFormed, Element.wire_ofValue _ _⟩
  unfold toElement
  rw [except_bind_eq_ok]
  exact ⟨_, toWire_eq nonempty accepted, mapError_eq_ok_iff.mpr decoded⟩

theorem exists_children_of_written (type : UInt32) {items : List Delegation}
    (fits : (items.flatMap Delegation.wire).length < 2 ^ 64) :
    ∃ children, (Element.ofValue type (items.flatMap Delegation.wire)).children = .ok children ∧
      List.Forall₂ (fun child delegation => Delegation.ofElement child = .ok delegation)
        children items := by
  rw [funext Delegation.wire_eq] at *
  obtain ⟨children, wellFormed, whole, read⟩ := Delegation.sequence_iff.mp (sequence_shortest fits)
  refine ⟨children, Element.children_eq_ok_iff.mpr ⟨wellFormed, ?_⟩, read⟩
  rw [whole, Element.ofValue_eq]

/-- A list whose encoding has a size that a length number can hold is written into one element. Its
value is what the delegations take one after the other, each of them the same as in a list of its
own, and the children that it splits into hold the delegations at the same places. -/
theorem toElement_splits_into_items (list : DelegationList) (type : UInt32) (nonempty : list.items ≠ [])
    (accepted : type = TypeNumber.content ∨ type = TypeNumber.forwardingHint)
    (fits : ∀ wire, list.toWire type = .ok wire → wire.length < 2 ^ 64) :
    ∃ element children, list.toElement type = .ok element ∧ list.toWire type = .ok element.wire ∧
      element.type = type ∧ element.value = list.items.flatMap Delegation.wire ∧
      (∀ delegation ∈ list.items, ∀ sorted, ∃ single,
        (⟨sorted, [delegation]⟩ : DelegationList).toElement type = .ok single ∧
          single.value = delegation.wire) ∧
      element.children = .ok children ∧ children.length = list.size ∧
      ∀ index child, children[index]? = some child → child.type = TypeNumber.delegation ∧
        ∃ delegation, list.get? index = some delegation ∧
          Delegation.ofElement child = .ok delegation := by
  rw [← isListType_iff] at accepted
  have written := toWire_eq nonempty accepted
  have bound := Nat.lt_of_le_of_lt (Element.length_le_shortest type _) (fits _ written)
  rw [← funext Delegation.wire_eq] at bound
  obtain ⟨children, split, read⟩ := exists_children_of_written type bound
  obtain ⟨sameLength, places⟩ := List.forall₂_iff_get.mp read
  refine ⟨_, children, toElement_eq nonempty accepted bound, ?_, ?_, ?_, ?_, split, sameLength, ?_⟩
  · rw [written, Element.wire_ofValue, funext Delegation.wire_eq]
    rfl
  · rw [Element.ofValue_eq]
  · rw [Element.ofValue_eq]
  · intro delegation mem sorted
    have := length_le_length_flatMap Delegation.wire mem
    have alone : [delegation].flatMap Delegation.wire = delegation.wire :=
      List.flatMap_singleton _ _
    refine ⟨_, toElement_eq (List.cons_ne_nil _ _) accepted ?_, ?_⟩
    · rw [alone]
      omega
    · rw [Element.ofValue_eq, alone]
  · intro index child found
    obtain ⟨inside, rfl⟩ := List.getElem?_eq_some_iff.mp found
    have holds := places index inside (sameLength ▸ inside)
    exact ⟨(Delegation.ofElement_eq_ok_iff.mp holds).1, _, List.getElem?_eq_getElem _, holds⟩

theorem toElement_splits_into_items_unsorted : ∃ element children,
    (⟨false, [⟨300, ⟨[.generic [98]]⟩⟩, ⟨10, ⟨[]⟩⟩]⟩ : DelegationList).toElement 21 = .ok element ∧
      element.value = [31, 9, 30, 2, 1, 44, 7, 3, 8, 1, 98, 31, 5, 30, 1, 10, 7, 0] ∧
      element.children = .ok children ∧ children.length = 2 := by
  have written : (⟨false, [⟨300, ⟨[.generic [98]]⟩⟩, ⟨10, ⟨[]⟩⟩]⟩ : DelegationList).toWire 21 =
      .ok [21, 18, 31, 9, 30, 2, 1, 44, 7, 3, 8, 1, 98, 31, 5, 30, 1, 10, 7, 0] := by cbv
  obtain ⟨element, children, toElement, _, _, value, _, split, length, _⟩ :=
    toElement_splits_into_items ⟨false, [⟨300, ⟨[.generic [98]]⟩⟩, ⟨10, ⟨[]⟩⟩]⟩ 21
      (List.cons_ne_nil _ _) (.inl rfl) (by
        intro wire written'
        cases written.symm.trans written'
        decide)
  have parts : [(⟨300, ⟨[.generic [98]]⟩⟩ : Delegation), ⟨10, ⟨[]⟩⟩].flatMap Delegation.wire =
      [31, 9, 30, 2, 1, 44, 7, 3, 8, 1, 98, 31, 5, 30, 1, 10, 7, 0] := by cbv
  exact ⟨element, children, toElement, value.trans parts, split, length⟩

end Delegations.DelegationList
