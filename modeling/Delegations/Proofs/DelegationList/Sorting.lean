import Delegations.Proofs.DelegationList.RoundTrip

/-!
Ways to a list in order. Main statement: sorting while a list is read, sorting it afterwards and
inserting its delegations one by one give the same list, in whatever order the delegations stand in
the element (`sorted_alike`).
-/
namespace Delegations

def Element.Shuffles (element other : Element) : Prop :=
  element.type = other.type ∧ ∃ children others : List Element, other.children = .ok children ∧
    others.Perm children ∧ element.value = others.flatMap wire

theorem Element.Shuffles.children_eq {element other : Element} {children : List Element}
    (shuffles : element.Shuffles other) (split : other.children = .ok children) :
    ∃ others, element.children = .ok others ∧ others.Perm children := by
  rcases shuffles with ⟨_, _, others, same, perm, value⟩
  cases split.symm.trans same
  obtain ⟨wellFormed, _⟩ := Element.children_eq_ok_iff.mp split
  refine ⟨others, Element.children_eq_ok_iff.mpr ⟨?_, value.symm⟩, perm⟩
  intro child mem
  exact wellFormed child (perm.mem_iff.mp mem)

namespace DelegationList

variable {list : DelegationList} {items others : List Delegation}

theorem sort_of_isSorted (sorted : list.isSorted) : list.sort = list :=
  if_pos sorted

theorem sort_sort (list : DelegationList) : list.sort.sort = list.sort :=
  sort_of_isSorted isSorted_sort

theorem arranges_sort (unsorted : list.isSorted = false) :
    Arranges list.items true list.sort := by
  have same : list.sort = placeAll list.items ⟨true, []⟩ := if_neg (by simp [unsorted])
  rw [same]
  exact arranges_placeAll list.items true

theorem sort_perm (list : DelegationList) : list.sort.items.Perm list.items := by
  cases flag : list.isSorted with
  | true => rw [sort_of_isSorted flag]
  | false => exact (arranges_sort flag).2.1

theorem Arranges.of_perm (arranges : Arranges items true list) (perm : items.Perm others) :
    Arranges others true list := by
  rcases arranges with ⟨flag, permItems, ordered⟩
  exact ⟨flag, permItems.trans perm, ordered⟩

theorem ofElement_of_shuffles {element permuted : Element} (shuffles : permuted.Shuffles element)
    (read : ofElement element true = .ok list) : ofElement permuted true = .ok list := by
  obtain ⟨accepted, children, split, items, holds, nonempty, arranges⟩ :=
    ofElement_eq_ok_iff_children.mp read
  obtain ⟨others, splitPermuted, perm⟩ := shuffles.children_eq split
  obtain ⟨shuffled, holdsShuffled, permItems⟩ := List.perm_comp_forall₂ perm holds
  rw [← shuffles.1] at accepted
  refine ofElement_eq_ok_iff_children.mpr
    ⟨accepted, others, splitPermuted, shuffled, holdsShuffled, ?_, arranges.of_perm permItems.symm⟩
  rintro rfl
  exact nonempty permItems.nil_eq.symm

/-- However the delegations of an element are put in order, the list is the same, and no other
arrangement of them is in order. -/
theorem sorted_alike {element : Element} {list : DelegationList}
    (read : ofElement element false = .ok list) :
    ofElement element true = .ok list.sort ∧
      list.items.foldl (fun sorted delegation => (sorted.insert delegation .append).2) empty =
        list.sort ∧
      (∃ children, element.children = .ok children ∧
        List.Forall₂ (fun child delegation => Delegation.ofElement child = .ok delegation)
          children list.items) ∧
      (∀ items : List Delegation,
        items.Perm list.items ∧ items.Pairwise (· ≤ ·) ↔ items = list.sort.items) ∧
      list.sort.isSorted ∧ list.sort.sort = list.sort ∧
      ∀ type, isListType type → ∃ bytes, ∀ permuted : Element, permuted.Shuffles element →
        ∃ again, ofElement permuted true = .ok again ∧ again = list.sort ∧
          again.toWire type = .ok bytes := by
  obtain ⟨accepted, children, split, items, holds, nonempty, arranges⟩ :=
    ofElement_eq_ok_iff_children.mp read
  obtain ⟨unsorted, _, sameItems⟩ := arranges
  obtain rfl : list.items = items := sameItems
  have arrangesSort := arranges_sort unsorted
  have readSorted : ofElement element true = .ok list.sort :=
    ofElement_eq_ok_iff_children.mpr
      ⟨accepted, children, split, list.items, holds, nonempty, arrangesSort⟩
  obtain ⟨isSorted, perm, ordered⟩ := arrangesSort
  refine ⟨readSorted, ?_, ⟨children, split, holds⟩, ?_, isSorted, sort_sort list, ?_⟩
  · exact placeAll_eq_iff.mpr ⟨isSorted, perm, ordered⟩
  · intro items
    refine ⟨?_, ?_⟩
    · intro h
      exact Delegation.eq_of_perm_of_ordered (h.1.trans perm.symm) h.2 ordered
    · rintro rfl
      exact ⟨perm, ordered⟩
  · intro type isList
    have occupied : list.sort.items ≠ [] := by
      intro none
      rw [none] at perm
      exact nonempty perm.nil_eq.symm
    refine ⟨shortest type list.sort.items, ?_⟩
    intro permuted shuffles
    exact ⟨list.sort, ofElement_of_shuffles shuffles readSorted, rfl, toWire_eq occupied isList⟩

theorem sorted_alike_shuffled :
    ofElement ⟨21, [21, 30], [31, 8, 30, 1, 10, 7, 3, 8, 1, 97, 31, 8, 30, 1, 20, 7, 3, 8, 1, 98,
      31, 8, 30, 1, 10, 7, 3, 8, 1, 97]⟩ true =
        .ok ⟨true, [⟨10, ⟨[.generic [97]]⟩⟩, ⟨10, ⟨[.generic [97]]⟩⟩, ⟨20, ⟨[.generic [98]]⟩⟩]⟩ := by
  have read : ofElement ⟨21, [21, 30], [31, 8, 30, 1, 20, 7, 3, 8, 1, 98, 31, 8, 30, 1, 10, 7, 3, 8,
      1, 97, 31, 8, 30, 1, 10, 7, 3, 8, 1, 97]⟩ false =
        .ok ⟨false, [⟨20, ⟨[.generic [98]]⟩⟩, ⟨10, ⟨[.generic [97]]⟩⟩, ⟨10, ⟨[.generic [97]]⟩⟩]⟩ := by
    cbv
  obtain ⟨_, _, _, _, _, _, shuffled⟩ := sorted_alike read
  obtain ⟨bytes, shuffled⟩ := shuffled 30 (by decide)
  obtain ⟨again, readAgain, rfl, _⟩ := shuffled ⟨21, [21, 30], _⟩
    ⟨Eq.refl 21, _, [⟨31, [31, 8], [30, 1, 10, 7, 3, 8, 1, 97]⟩,
      ⟨31, [31, 8], [30, 1, 20, 7, 3, 8, 1, 98]⟩, ⟨31, [31, 8], [30, 1, 10, 7, 3, 8, 1, 97]⟩],
      by cbv, by decide, rfl⟩
  exact readAgain

end DelegationList

end Delegations
