import Delegations.Proofs.DelegationList.Loading

/-!
The lists that callers can come by, and what holds of all of them. Main statement: a list that
counts as sorted is in order after any run of operations, and only sorting and loading decide
whether it counts as sorted (`ordered_run`).
-/
namespace Delegations.DelegationList

inductive Operation where
  | insert (delegation : Delegation) (policy : ConflictPolicy)
  | erase (preference : UInt64) (name : Name)
  | eraseName (name : Name)
  | eraseDelegation (delegation : Delegation)
  | sort
  | copy
  /-- Loading counts as done also where it fails. -/
  | load (element : Element) (sorted : Bool)

namespace Operation

def apply (list : DelegationList) : Operation → DelegationList
  | insert delegation policy => (list.insert delegation policy).2
  | erase preference name => (list.erase preference name).2
  | eraseName name => (list.eraseName name).2
  | eraseDelegation delegation => (list.eraseDelegation delegation).2
  | sort => list.sort
  | copy => list
  | load element sorted =>
    match (DelegationList.load element sorted).run list with
    | .ok _ loaded => loaded
    | .error _ loaded => loaded

def flag (before : Bool) : Operation → Bool
  | sort => true
  | load element sorted => if isListType element.type then sorted else before
  | _ => before

end Operation

inductive Origin : DelegationList → Prop
  | empty : Origin empty
  | ofDelegations (delegations : List Delegation) : Origin (ofDelegations delegations)
  | ofElement {element : Element} {sorted : Bool} {list : DelegationList} :
      ofElement element sorted = .ok list → Origin list
  | ofWire {wire : List UInt8} {sorted : Bool} {list : DelegationList} :
      ofWire wire sorted = .ok list → Origin list

def run (operations : List Operation) (origin : DelegationList) : DelegationList :=
  operations.foldl Operation.apply origin

def Reachable (list : DelegationList) : Prop :=
  ∃ origin operations, Origin origin ∧ run operations origin = list

/-- A list that counts as sorted is in order. -/
def Ordered (list : DelegationList) : Prop :=
  list.isSorted → list.items.Pairwise (· ≤ ·)

variable {list : DelegationList}

theorem ordered_empty : Ordered empty := fun _ => List.Pairwise.nil

theorem Ordered.place (ordered : list.Ordered) (delegation : Delegation) :
    (list.place delegation).Ordered := by
  intro sorted
  rw [isSorted_place] at sorted
  exact place_ordered sorted (ordered sorted)

theorem Ordered.placeAll (ordered : list.Ordered) (delegations : List Delegation) :
    (list.placeAll delegations).Ordered := by
  intro sorted
  rw [isSorted_placeAll] at sorted
  exact placeAll_ordered sorted (ordered sorted)

theorem Ordered.eraseIf (ordered : list.Ordered) (test : Delegation → Bool) :
    (list.eraseIf test).2.Ordered := by
  intro sorted
  exact (ordered sorted).sublist List.filter_sublist

theorem Ordered.insert (ordered : list.Ordered) (delegation : Delegation)
    (policy : ConflictPolicy) : (list.insert delegation policy).2.Ordered := by
  cases policy with
  | replace => exact (ordered.eraseIf _).place delegation
  | append => exact ordered.place delegation
  | skip =>
    simp only [DelegationList.insert]
    split
    · exact ordered
    · exact ordered.place delegation

theorem Ordered.sort (ordered : list.Ordered) : list.sort.Ordered := by
  unfold DelegationList.sort
  split
  · exact ordered
  · exact ordered_empty.placeAll list.items

theorem isSorted_sort : list.sort.isSorted = true := by
  unfold sort
  split
  · assumption
  · exact isSorted_placeAll

@[simp] theorem isSorted_insert (delegation : Delegation) (policy : ConflictPolicy) :
    (list.insert delegation policy).2.isSorted = list.isSorted := by
  cases policy with
  | replace => exact isSorted_place
  | append => exact isSorted_place
  | skip =>
    simp only [insert]
    split
    · rfl
    · exact isSorted_place

namespace Operation

open Delegation (leading)

variable {element : Element} {sorted : Bool}

theorem apply_load_eq_attempt : (load element sorted).apply list =
    (attempt (DelegationList.load element sorted) list).2 := by
  unfold attempt
  simp only [apply]
  cases (DelegationList.load element sorted).run list <;> rfl

theorem apply_load : (load element sorted).apply list =
    if isListType element.type then
      match element.children with
      | .error _ => ⟨sorted, []⟩
      | .ok children => placeAll (leading children).1 ⟨sorted, []⟩
    else list := by
  rw [apply_load_eq_attempt, attempt_load]
  split
  · cases element.children <;> rfl
  · rfl

theorem ordered_load (ordered : list.Ordered) : ((load element sorted).apply list).Ordered := by
  have cleared : Ordered ⟨sorted, []⟩ := fun _ => List.Pairwise.nil
  rw [apply_load]
  split
  · cases element.children with
    | error fault => exact cleared
    | ok children => exact cleared.placeAll _
  · exact ordered

theorem isSorted_apply_load : ((load element sorted).apply list).isSorted =
    if isListType element.type then sorted else list.isSorted := by
  rw [apply_load]
  split
  · cases element.children with
    | error fault => rfl
    | ok children => exact isSorted_placeAll
  · rfl

theorem ordered_apply (operation : Operation) (ordered : list.Ordered) :
    (operation.apply list).Ordered := by
  cases operation with
  | insert delegation policy => exact ordered.insert delegation policy
  | erase preference name => exact ordered.eraseIf _
  | eraseName name => exact ordered.eraseIf _
  | eraseDelegation delegation => exact ordered.eraseIf _
  | sort => exact ordered.sort
  | copy => exact ordered
  | load element sorted => exact ordered_load ordered

theorem isSorted_apply (operation : Operation) :
    (operation.apply list).isSorted = operation.flag list.isSorted := by
  cases operation with
  | insert delegation policy => exact isSorted_insert delegation policy
  | erase preference name => rfl
  | eraseName name => rfl
  | eraseDelegation delegation => rfl
  | sort => exact isSorted_sort
  | copy => rfl
  | load element sorted => exact isSorted_apply_load

end Operation

theorem apply_load_of_ofElement {element : Element} {sorted : Bool}
    (h : ofElement element sorted = .ok list) :
    (Operation.load element sorted).apply empty = list := by
  rw [Operation.apply_load_eq_attempt, ofElement_eq_ok_iff_attempt.mp h]

theorem Origin.ordered (origin : Origin list) : list.Ordered := by
  cases origin with
  | empty => exact ordered_empty
  | ofDelegations delegations =>
    -- The order holds of every list on the way, not only of the last.
    apply List.foldlRecOn delegations _ ordered_empty
    intro before ordered delegation _
    exact ordered.insert delegation .replace
  | ofElement decoded =>
    rw [← apply_load_of_ofElement decoded]
    exact Operation.ordered_load ordered_empty
  | ofWire decoded =>
    obtain ⟨_, _, decoded⟩ := ofWire_eq_ok_iff_ofElement.mp decoded
    rw [← apply_load_of_ofElement decoded]
    exact Operation.ordered_load ordered_empty

theorem ordered_run {origin : DelegationList} (start : Origin origin)
    (operations : List Operation) : (run operations origin).Ordered := by
  apply List.foldlRecOn operations _ start.ordered
  intro before ordered operation _
  exact operation.ordered_apply ordered

theorem Reachable.ordered (reachable : list.Reachable) : list.Ordered := by
  obtain ⟨origin, operations, start, rfl⟩ := reachable
  exact ordered_run start operations

/-- After any run, a list that counts as sorted is in order, and one more operation changes whether
it does only by sorting it or by loading an element of an accepted type into it. -/
theorem order_preserved {origin : DelegationList} (start : Origin origin)
    (operations : List Operation) :
    ((run operations origin).isSorted → (run operations origin).items.Pairwise (· ≤ ·)) ∧
      ∀ operation : Operation, (run (operations ++ [operation]) origin).isSorted =
        operation.flag (run operations origin).isSorted := by
  refine ⟨ordered_run start operations, ?_⟩
  intro operation
  unfold run
  rw [List.foldl_append]
  exact operation.isSorted_apply

theorem order_preserved_past_failed_load :
    (run [.load ⟨30, [30, 22], [31, 8, 30, 1, 20, 7, 3, 8, 1, 98, 31, 8, 30, 1, 10, 7, 3, 8, 1, 97,
      32, 0]⟩ true, .insert ⟨15, ⟨[.generic [99]]⟩⟩ .append] empty).items.Pairwise (· ≤ ·) := by
  apply (order_preserved .empty _).1
  decide +kernel

end Delegations.DelegationList
