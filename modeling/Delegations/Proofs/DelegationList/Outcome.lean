import Delegations.Proofs.DelegationList.Forms

/-!
What a load answers and what it leaves behind. Main statement: it stops at the first bad child, and
nothing but the element and the wish for order counts, of which the answer does not depend on the
latter (`load_stops_at_first_bad_child`).
-/
namespace Delegations

namespace Delegation

theorem leading_stops (children : List Element) :
    List.Forall₂ (fun child delegation => ofElement child = .ok delegation)
        (children.take (leading children).1.length) (leading children).1 ∧
      match children[(leading children).1.length]? with
      | some child => ∃ fault, ofElement child = .error fault ∧ (leading children).2 = some fault
      | none => (leading children).2 = none := by
  induction children with
  | nil => exact ⟨.nil, rfl⟩
  | cons child rest ih =>
    unfold leading
    cases read : ofElement child with
    | ok delegation => exact ⟨.cons read ih.1, ih.2⟩
    | error fault => exact ⟨.nil, fault, read, rfl⟩

end Delegation

namespace DelegationList

open Delegation (leading)

/-- The items are the delegations of the children in front of the first bad one. The answer is the
fault of that child if there is one, and without any children it is that the list is empty. -/
structure Takes (children : List Element) (items : List Delegation)
    (answer : Except FormatError Unit) : Prop where
  taken : List.Forall₂ (fun child delegation => Delegation.ofElement child = .ok delegation)
    (children.take items.length) items
  stopped : ∀ inside : items.length < children.length, ∃ fault,
    Delegation.ofElement children[items.length] = .error fault ∧ answer = .error fault
  empty : children = [] → answer = .error .emptyList
  complete : children ≠ [] → items.length = children.length → answer = .ok ()

theorem takes_leading (children : List Element) :
    Takes children (leading children).1 (verdict children) := by
  obtain ⟨taken, stops⟩ := Delegation.leading_stops children
  refine ⟨taken, ?_, ?_, ?_⟩
  · intro inside
    rw [List.getElem?_eq_getElem inside] at stops
    obtain ⟨fault, refused, stops⟩ := stops
    refine ⟨fault, refused, ?_⟩
    unfold verdict
    rw [stops]
  · rintro rfl
    rfl
  · intro nonempty all
    rw [all, List.getElem?_eq_none (Nat.le_refl _)] at stops
    refine verdict_eq_ok_iff.mpr ⟨stops, ?_⟩
    rw [← List.length_pos_iff, all, List.length_pos_iff]
    exact nonempty

/-- An element of another type leaves the list as it was. Any other one replaces what it held: by
nothing if the value does not split, and else by the delegations in front of the first bad child. -/
theorem load_stops_at_first_bad_child (element : Element) (sorted : Bool) :
    (element.type ≠ TypeNumber.content → element.type ≠ TypeNumber.forwardingHint → ∀ list,
      attempt (load element sorted) list = (.error (.unexpectedListType element.type), list)) ∧
    (element.type = TypeNumber.content ∨ element.type = TypeNumber.forwardingHint →
      ∃ answer after, (∀ list, attempt (load element sorted) list = (answer, after)) ∧
        (∀ other list, (attempt (load element other) list).1 = answer) ∧
        after.isSorted = sorted ∧
        ((∀ children, ¬element.SplitsInto children) → ∃ fault, element.children = .error fault ∧
          answer = .error (.malformed fault) ∧ after.items = []) ∧
        ∀ children, element.SplitsInto children →
          ∃ items, Takes children items answer ∧ Arranges items sorted after) := by
  refine ⟨?_, ?_⟩
  · intro notContent notHint list
    rw [attempt_load, if_neg]
    rw [isListType_iff]
    exact not_or.mpr ⟨notContent, notHint⟩
  · intro accepted
    rw [← isListType_iff] at accepted
    simp only [attempt_load, if_pos accepted]
    cases split : element.children with
    | error fault =>
      refine ⟨_, _, fun _ => rfl, fun _ _ => rfl, rfl, ?_, ?_⟩
      · intro _
        exact ⟨fault, rfl, rfl, rfl⟩
      · intro children splits
        cases split.symm.trans (Element.children_eq_ok_iff.mpr splits)
    | ok children =>
      refine ⟨_, _, fun _ => rfl, fun _ _ => rfl, isSorted_placeAll, ?_, ?_⟩
      · intro none
        exact absurd (Element.children_eq_ok_iff.mp split) (none children)
      · intro others splits
        cases split.symm.trans (Element.children_eq_ok_iff.mpr splits)
        exact ⟨_, takes_leading children, arranges_placeAll _ sorted⟩

theorem load_stops_at_first_bad_child_third :
    attempt (load ⟨30, [30, 32], [31, 8, 30, 1, 20, 7, 3, 8, 1, 98, 31, 8, 30, 1, 10, 7, 3, 8, 1, 97,
      32, 0, 31, 8, 30, 1, 5, 7, 3, 8, 1, 99]⟩ true) ⟨false, [⟨15, ⟨[]⟩⟩]⟩ =
        (.error (.unexpectedDelegationType 32),
          ⟨true, [⟨10, ⟨[.generic [97]]⟩⟩, ⟨20, ⟨[.generic [98]]⟩⟩]⟩) := by
  obtain ⟨answer, after, same, _⟩ := (load_stops_at_first_bad_child
    ⟨30, [30, 32], [31, 8, 30, 1, 20, 7, 3, 8, 1, 98, 31, 8, 30, 1, 10, 7, 3, 8, 1, 97, 32, 0, 31, 8,
      30, 1, 5, 7, 3, 8, 1, 99]⟩ true).2 (.inr rfl)
  rw [same, ← same empty]
  cbv

end DelegationList

end Delegations
