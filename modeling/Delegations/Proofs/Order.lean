import Mathlib
import Delegations.DelegationList

/-!
The canonical order is a linear order on components, names and delegations. Main statements:
a list of delegations has one arrangement in order (`eq_of_perm_of_ordered`), and placing keeps a
sorted list in order (`place_ordered`).
-/
namespace Delegations

open Std

namespace Component

theorem compare_eq_compareLex : (compare : Component → Component → Ordering) =
    compareLex (compareOn type)
      (compareLex (compareOn fun component => component.value.length) (compareOn value)) := rfl

instance : TransOrd Component := by
  unfold TransOrd
  rw [compare_eq_compareLex]
  infer_instance

instance : LawfulEqOrd Component where
  eq_of_compare {a b} h := by
    rw [compare_eq_compareLex] at h
    simp only [compareLex_eq_eq, compareOn, LawfulEqOrd.compare_eq_iff_eq] at h
    cases a
    cases b
    simp only [mk.injEq]
    exact ⟨h.1, h.2.2⟩

end Component

namespace Name

theorem compare_eq_compareOn :
    (compare : Name → Name → Ordering) = compareOn components := rfl

instance : TransOrd Name := by
  unfold TransOrd
  rw [compare_eq_compareOn]
  infer_instance

instance : LawfulEqOrd Name where
  eq_of_compare {a b} h := by
    cases a
    cases b
    exact congrArg mk (LawfulEqOrd.eq_of_compare h)

end Name

namespace Delegation

theorem compare_eq_compareLex : (compare : Delegation → Delegation → Ordering) =
    compareLex (compareOn preference) (compareOn name) := rfl

instance : TransOrd Delegation := by
  unfold TransOrd
  rw [compare_eq_compareLex]
  infer_instance

instance : LawfulEqOrd Delegation where
  eq_of_compare {a b} h := by
    rw [compare_eq_compareLex] at h
    simp only [compareLex_eq_eq, compareOn, LawfulEqOrd.compare_eq_iff_eq] at h
    cases a
    cases b
    simp only [mk.injEq]
    exact h

instance : LawfulOrderOrd Delegation where
  isLE_compare _ _ := Iff.rfl
  isGE_compare a b := by
    rw [OrientedOrd.eq_swap, Ordering.isGE_swap]
    exact Iff.rfl

instance : IsLinearOrder Delegation := .of_ord

theorem le_iff {a b : Delegation} : a ≤ b ↔
    a.preference < b.preference ∨
      a.preference = b.preference ∧ (compare a.name b.name).isLE := by
  rw [← LawfulOrderOrd.isLE_compare, compare_eq_compareLex, compareLex, compareOn, compareOn,
    Ordering.isLE_then_iff_or]
  apply or_congr
  · exact compare_eq_lt
  · rw [compare_eq_eq_iff_eq]

theorem eq_of_perm_of_ordered {left right : List Delegation} (perm : left.Perm right)
    (orderedLeft : left.Pairwise (· ≤ ·)) (orderedRight : right.Pairwise (· ≤ ·)) :
    left = right :=
  perm.eq_of_pairwise (fun _ _ _ _ => le_antisymm) orderedLeft orderedRight

theorem not_le_of_mem_dropWhile {items : List Delegation} {delegation later : Delegation}
    (ordered : items.Pairwise (· ≤ ·)) (mem : later ∈ items.dropWhile (· ≤ delegation)) :
    ¬later ≤ delegation := by
  induction items with
  | nil => cases mem
  | cons first rest ih =>
    obtain ⟨below, ordered⟩ := List.pairwise_cons.mp ordered
    by_cases small : first ≤ delegation
    · rw [List.dropWhile_cons_of_pos (by simpa using small)] at mem
      exact ih ordered mem
    · rw [List.dropWhile_cons_of_neg (by simpa using small)] at mem
      rcases List.mem_cons.mp mem with rfl | mem
      · exact small
      · intro small'
        exact small (le_trans (below later mem) small')

theorem le_of_mem_takeWhile {items : List Delegation} {delegation earlier : Delegation}
    (mem : earlier ∈ items.takeWhile (· ≤ delegation)) : earlier ≤ delegation := by
  simpa using List.all_eq_true.mp List.all_takeWhile earlier mem

end Delegation

namespace DelegationList

variable {list : DelegationList} {delegation : Delegation}

@[simp] theorem isSorted_place : (list.place delegation).isSorted = list.isSorted := by
  unfold place
  split <;> rfl

theorem place_perm : (list.place delegation).items.Perm (delegation :: list.items) := by
  unfold place
  split
  · apply List.perm_middle.trans
    rw [List.takeWhile_append_dropWhile]
  · exact List.perm_append_singleton delegation list.items

theorem place_ordered (sorted : list.isSorted) (ordered : list.items.Pairwise (· ≤ ·)) :
    (list.place delegation).items.Pairwise (· ≤ ·) := by
  unfold place
  rw [if_pos sorted]
  have before : ∀ first ∈ list.items.takeWhile (· ≤ delegation), first ≤ delegation :=
    fun _ mem => Delegation.le_of_mem_takeWhile mem
  have after : ∀ last ∈ list.items.dropWhile (· ≤ delegation), delegation ≤ last := by
    intro last mem
    exact le_total.resolve_left (Delegation.not_le_of_mem_dropWhile ordered mem)
  apply List.pairwise_append.mpr
  refine ⟨ordered.sublist (List.takeWhile_sublist _), ?_, ?_⟩
  · exact List.pairwise_cons.mpr ⟨after, ordered.sublist (List.dropWhile_sublist _)⟩
  · intro first memFirst last memLast
    rcases List.mem_cons.mp memLast with rfl | memLast
    · exact before first memFirst
    · exact le_trans (before first memFirst) (after last memLast)

theorem place_unsorted (unsorted : list.isSorted = false) :
    list.place delegation = { list with items := list.items ++ [delegation] } := by
  unfold place
  simp [unsorted]

def placeAll (delegations : List Delegation) (list : DelegationList) : DelegationList :=
  delegations.foldl (fun list delegation => list.place delegation) list

variable {delegations : List Delegation}

@[simp] theorem isSorted_placeAll : (list.placeAll delegations).isSorted = list.isSorted := by
  induction delegations generalizing list with
  | nil => rfl
  | cons delegation rest ih =>
    change ((list.place delegation).placeAll rest).isSorted = list.isSorted
    rw [ih, isSorted_place]

theorem placeAll_perm : (list.placeAll delegations).items.Perm (list.items ++ delegations) := by
  induction delegations generalizing list with
  | nil => simp [placeAll]
  | cons delegation rest ih =>
    apply ih.trans
    apply (place_perm.append_right rest).trans
    exact List.perm_middle.symm

theorem placeAll_ordered (sorted : list.isSorted) (ordered : list.items.Pairwise (· ≤ ·)) :
    (list.placeAll delegations).items.Pairwise (· ≤ ·) := by
  induction delegations generalizing list with
  | nil => exact ordered
  | cons delegation rest ih =>
    apply ih
    · rw [isSorted_place]
      exact sorted
    · exact place_ordered sorted ordered

theorem placeAll_unsorted (unsorted : list.isSorted = false) :
    list.placeAll delegations = { list with items := list.items ++ delegations } := by
  induction delegations generalizing list with
  | nil => simp [placeAll]
  | cons delegation rest ih =>
    change (list.place delegation).placeAll rest = _
    rw [place_unsorted unsorted]
    refine (ih ?_).trans ?_
    · exact unsorted
    · simp

end DelegationList

end Delegations
