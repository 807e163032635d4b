import Delegations.Proofs.Delegation
import Delegations.Proofs.DelegationList.Loading

/-!
The forms of delegation lists. Main statement: the bytes that a list is read from are exactly the
forms of its delegations in some order, which is the order of the list unless it is to be sorted
(`ofWire_eq_ok_iff`).
-/
namespace Delegations

theorem Delegation.leading_eq_iff {elements : List Element} {delegations : List Delegation} :
    leading elements = (delegations, none) ↔
      List.Forall₂ (fun element delegation => ofElement element = .ok delegation)
        elements delegations := by
  induction elements generalizing delegations with
  | nil => simp [leading, eq_comm]
  | cons element rest ih =>
    rw [List.forall₂_cons_left_iff]
    simp only [← ih, leading]
    cases outcome : ofElement element with
    | error fault => simp
    | ok delegation =>
      refine ⟨?_, ?_⟩
      · intro h
        obtain ⟨same, sound⟩ := Prod.mk.inj h
        refine ⟨delegation, (leading rest).1, rfl, ?_, same.symm⟩
        rw [← sound]
      · intro h
        rcases h with ⟨_, others, same, h, rfl⟩
        cases same
        rw [h]

namespace DelegationList

/-- The bytes are an element of one of the two types of lists, with at least one delegation in it. -/
def Form (type : UInt32) (items : List Delegation) (bytes : List UInt8) : Prop :=
  (type = TypeNumber.content ∨ type = TypeNumber.forwardingHint) ∧ items ≠ [] ∧
    ∃ value, Element.Form type value bytes ∧ Sequence Delegation.Form items value

/-- The list holds the items, in order if it is to be sorted and else as they come. -/
def Arranges (items : List Delegation) (sorted : Bool) (list : DelegationList) : Prop :=
  list.isSorted = sorted ∧ list.items.Perm items ∧
    if sorted then list.items.Pairwise (· ≤ ·) else list.items = items

variable {items : List Delegation} {sorted : Bool} {list : DelegationList}

theorem arranges_placeAll (items : List Delegation) (sorted : Bool) :
    Arranges items sorted (placeAll items ⟨sorted, []⟩) := by
  refine ⟨isSorted_placeAll, placeAll_perm, ?_⟩
  cases sorted with
  | true => exact placeAll_ordered rfl .nil
  | false =>
    rw [placeAll_unsorted rfl]
    rfl

theorem arranges_of_ordered (ordered : items.Pairwise (· ≤ ·)) (sorted : Bool) :
    Arranges items sorted ⟨sorted, items⟩ := by
  refine ⟨rfl, List.Perm.rfl, ?_⟩
  split
  · exact ordered
  · rfl

theorem Arranges.unique {other : DelegationList} (left : Arranges items sorted list)
    (right : Arranges items sorted other) : list = other := by
  rcases list with ⟨_, _⟩
  rcases other with ⟨_, _⟩
  rcases left with ⟨rfl, permLeft, left⟩
  rcases right with ⟨rfl, permRight, right⟩
  congr 1
  split at left
  · rename_i wanted
    rw [if_pos wanted] at right
    exact Delegation.eq_of_perm_of_ordered (permLeft.trans permRight.symm) left right
  · rename_i unwanted
    rw [if_neg unwanted] at right
    exact left.trans right.symm

theorem placeAll_eq_iff : placeAll items ⟨sorted, []⟩ = list ↔ Arranges items sorted list := by
  refine ⟨?_, ?_⟩
  · rintro rfl
    exact arranges_placeAll items sorted
  · exact (arranges_placeAll items sorted).unique

theorem ofElement_eq_ok_iff_leading {element : Element} :
    ofElement element sorted = .ok list ↔ isListType element.type ∧
      ∃ children, element.children = .ok children ∧ ∃ items,
        Delegation.leading children = (items, none) ∧ items ≠ [] ∧
          placeAll items ⟨sorted, []⟩ = list := by
  rw [ofElement_eq_ok_iff_attempt, attempt_load]
  by_cases accepted : isListType element.type
  · rw [if_pos accepted]
    cases element.children with
    | error fault => simp
    | ok children =>
      simp only [Prod.mk.injEq, verdict_eq_ok_iff, accepted, Except.ok.injEq, true_and]
      refine ⟨?_, ?_⟩
      · intro h
        rcases h with ⟨⟨complete, nonempty⟩, placed⟩
        exact ⟨children, rfl, _, Prod.ext rfl complete, nonempty, placed⟩
      · intro h
        rcases h with ⟨_, rfl, items, leads, nonempty, placed⟩
        rw [leads]
        exact ⟨⟨rfl, nonempty⟩, placed⟩
  · simp [accepted]

theorem ofElement_eq_ok_iff_children {element : Element} : ofElement element sorted = .ok list ↔
    isListType element.type ∧ ∃ children, element.children = .ok children ∧
      ∃ items, List.Forall₂ (fun child delegation => Delegation.ofElement child = .ok delegation)
        children items ∧ items ≠ [] ∧ Arranges items sorted list := by
  simp only [ofElement_eq_ok_iff_leading, Delegation.leading_eq_iff, placeAll_eq_iff]

theorem ofElement_eq_ok_iff {element : Element} : ofElement element sorted = .ok list ↔
    isListType element.type ∧ ∃ items, items ≠ [] ∧ Sequence Delegation.Form items element.value ∧
      Arranges items sorted list := by
  simp only [Delegation.sequence_iff, ofElement_eq_ok_iff_children, Element.children_eq_ok_iff]
  refine and_congr_right fun _ => ?_
  refine ⟨?_, ?_⟩
  · intro h
    rcases h with ⟨children, ⟨wellFormed, wire⟩, items, holds, nonempty, arranges⟩
    exact ⟨items, nonempty, ⟨children, wellFormed, wire, holds⟩, arranges⟩
  · intro h
    rcases h with ⟨items, nonempty, ⟨children, wellFormed, wire, holds⟩, arranges⟩
    exact ⟨children, ⟨wellFormed, wire⟩, items, holds, nonempty, arranges⟩

theorem isListType_iff {type : UInt32} : isListType type ↔
    type = TypeNumber.content ∨ type = TypeNumber.forwardingHint := by
  simp [isListType]

variable {wire : List UInt8}

theorem ofWire_eq_ok_iff : ofWire wire sorted = .ok list ↔
    ∃ type items, Form type items wire ∧ Arranges items sorted list := by
  simp only [ofWire_eq_ok_iff_ofElement, Element.decode_eq_ok_iff, ofElement_eq_ok_iff,
    isListType_iff]
  unfold Form
  refine ⟨?_, ?_⟩
  · intro h
    rcases h with ⟨element, ⟨wellFormed, rfl⟩, accepted, items, nonempty, sequence, arranges⟩
    exact ⟨element.type, items, ⟨accepted, nonempty, _, wellFormed.form, sequence⟩, arranges⟩
  · intro h
    rcases h with ⟨type, items, ⟨accepted, nonempty, value, form, sequence⟩, arranges⟩
    obtain ⟨element, wellFormed, sameWire, rfl, rfl⟩ := Element.form_iff.mp form
    exact ⟨element, ⟨wellFormed, sameWire⟩, accepted, items, nonempty, sequence, arranges⟩

/-- The type of the element decides whether it is accepted, but not what is read from it. -/
theorem ofElement_congr {element other : Element} (accepted : isListType element.type)
    (acceptedOther : isListType other.type) (sameValue : other.value = element.value) :
    ofElement other sorted = ofElement element sorted := by
  unfold ofElement
  rw [run_load, run_load, if_pos accepted, if_pos acceptedOther]
  unfold Element.children
  rw [sameValue]

theorem ofWire_of_form {type : UInt32} {value : List UInt8} (form : Element.Form type value wire) :
    ∃ element : Element, element.type = type ∧ element.value = value ∧
      ofWire wire sorted = ofElement element sorted := by
  obtain ⟨element, wellFormed, sameWire, sameType, sameValue⟩ := Element.form_iff.mp form
  refine ⟨element, sameType, sameValue, ?_⟩
  unfold ofWire
  rw [Element.decode_eq_ok_iff.mpr ⟨wellFormed, sameWire⟩]
  rfl

/-- Exactly the forms of some delegations are accepted, these delegations are what is read, and
which of the two types the outer element has makes no difference. -/
theorem accepts_exactly_forms (wire : List UInt8) (sorted : Bool) :
    ((∃ list, ofWire wire sorted = .ok list) ↔ ∃ type items, Form type items wire) ∧
      (∀ list, ofWire wire sorted = .ok list ↔
        ∃ type items, Form type items wire ∧ Arranges items sorted list) ∧
      ∀ value other, Element.Form TypeNumber.content value wire →
        Element.Form TypeNumber.forwardingHint value other →
          ofWire other sorted = ofWire wire sorted := by
  refine ⟨?_, ?_, ?_⟩
  · simp only [ofWire_eq_ok_iff]
    refine ⟨?_, ?_⟩
    · intro h
      rcases h with ⟨_, type, items, form, _⟩
      exact ⟨type, items, form⟩
    · intro h
      rcases h with ⟨type, items, form⟩
      exact ⟨_, type, items, form, arranges_placeAll items sorted⟩
  · intro list
    exact ofWire_eq_ok_iff
  · intro value other form formOther
    obtain ⟨first, typeFirst, valueFirst, readFirst⟩ := ofWire_of_form form
    obtain ⟨second, typeSecond, valueSecond, readSecond⟩ := ofWire_of_form formOther
    rw [readFirst, readSecond]
    apply ofElement_congr
    · rw [typeFirst]
      decide
    · rw [typeSecond]
      decide
    · rw [valueFirst, valueSecond]

theorem accepts_exactly_forms_spacious : ∃ type items, Form type items
    [30, 253, 0, 14, 31, 12, 30, 2, 0, 10, 7, 3, 8, 1, 97, 99, 1, 0] := by
  apply (accepts_exactly_forms _ false).1.mp
  refine ⟨⟨false, [⟨10, ⟨[.generic [97]]⟩⟩]⟩, ?_⟩
  cbv

end DelegationList

end Delegations
