import Delegations.Proofs.DelegationList.Sorting

/-!
What an edit changes in a list and what it leaves as it is. Main statement: erasing takes out exactly
what it is asked to, inserting makes room as its policy says and puts the delegation at one place, and
all else stays where it was (`edits_keep_others_in_order`).
-/
namespace Delegations.DelegationList

structure Removes (test : Delegation → Bool) (before after : List Delegation) : Prop where
  inOrder : after.Sublist before
  gone : ∀ delegation ∈ after, test delegation = false
  kept : ∀ delegation, test delegation = false → after.count delegation = before.count delegation

/-- The delegation is put at one place: in a sorted list behind those that are not greater and before
those that are, in any other list at the end. -/
def Places (delegation : Delegation) (sorted : Bool) (before after : List Delegation) : Prop :=
  ∃ front back, before = front ++ back ∧ after = front ++ delegation :: back ∧
    if sorted then (∀ earlier ∈ front, earlier ≤ delegation) ∧ ∀ later ∈ back, ¬later ≤ delegation
    else back = []

structure Erases (test : Delegation → Bool) (list : DelegationList)
    (outcome : Nat × DelegationList) : Prop where
  removes : Removes test list.items outcome.2.items
  isSorted : outcome.2.isSorted = list.isSorted
  count : outcome.1 = list.items.countP test
  length : outcome.2.items.length + outcome.1 = list.items.length

/-- Only skipping can refuse the delegation, and then it changes nothing. Otherwise it is placed among
the others, and only replacing removes any of these, which are all that have its name. -/
structure Inserts (delegation : Delegation) (policy : ConflictPolicy) (list : DelegationList)
    (outcome : Bool × DelegationList) : Prop where
  isSorted : outcome.2.isSorted = list.isSorted
  refused : outcome.1 = false ↔ policy = .skip ∧ ∃ other ∈ list.items, other.name = delegation.name
  unchanged : outcome.1 = false → outcome.2 = list
  placed : outcome.1 = true → policy ≠ .replace →
    Places delegation list.isSorted list.items outcome.2.items
  replaced : policy = .replace → ∃ kept, Removes (·.name == delegation.name) list.items kept ∧
    Places delegation list.isSorted kept outcome.2.items

def DistinctNames (list : DelegationList) : Prop := (list.items.map Delegation.name).Nodup

variable {list : DelegationList} {delegation : Delegation}

theorem removes_filter (test : Delegation → Bool) (items : List Delegation) :
    Removes test items (items.filter (!test ·)) where
  inOrder := List.filter_sublist
  gone delegation mem := by simpa using (List.mem_filter.mp mem).2
  kept delegation spared := List.count_filter (by simpa using spared)

theorem erases_eraseIf (test : Delegation → Bool) (list : DelegationList) :
    Erases test list (list.eraseIf test) where
  removes := removes_filter test list.items
  isSorted := rfl
  count := by
    have total := List.length_eq_length_filter_add (l := list.items) test
    simp only [eraseIf, List.countP_eq_length_filter]
    omega
  length := Nat.add_sub_cancel' (List.length_filter_le _ _)

theorem places_place (ordered : list.Ordered) (delegation : Delegation) :
    Places delegation list.isSorted list.items (list.place delegation).items := by
  unfold place
  cases sorted : list.isSorted with
  | true =>
    refine ⟨_, _, List.takeWhile_append_dropWhile.symm, rfl, ?_, ?_⟩
    · intro earlier mem
      exact Delegation.le_of_mem_takeWhile mem
    · intro later mem
      exact Delegation.not_le_of_mem_dropWhile (ordered sorted) mem
  | false => exact ⟨list.items, [], (List.append_nil _).symm, rfl, rfl⟩

theorem insert_skip (list : DelegationList) (delegation : Delegation) :
    list.insert delegation .skip =
      if ∃ other ∈ list.items, other.name = delegation.name then (false, list)
      else (true, list.place delegation) := by
  unfold insert
  simp

theorem inserts_insert (ordered : list.Ordered) (delegation : Delegation)
    (policy : ConflictPolicy) : Inserts delegation policy list (list.insert delegation policy) := by
  have isSorted : (list.insert delegation policy).2.isSorted = list.isSorted :=
    isSorted_insert delegation policy
  cases policy with
  | replace =>
    have placed := places_place (ordered.eraseIf (·.name == delegation.name)) delegation
    exact ⟨isSorted, by simp [insert], by simp [insert], by simp,
      fun _ => ⟨_, removes_filter _ _, placed⟩⟩
  | append =>
    have placed := places_place ordered delegation
    exact ⟨isSorted, by simp [insert], by simp [insert], fun _ _ => placed, by simp⟩
  | skip =>
    rw [insert_skip] at isSorted ⊢
    have placed := places_place ordered delegation
    split
    · rename_i present
      exact ⟨rfl, by simp [present], fun _ => rfl, by simp, by simp⟩
    · rename_i absent
      exact ⟨isSorted_place, by simp [absent], by simp, fun _ _ => placed, by simp⟩

theorem distinctNames_of_perm {other : DelegationList} (perm : other.items.Perm list.items) :
    other.DistinctNames ↔ list.DistinctNames :=
  (perm.map Delegation.name).nodup_iff

theorem distinctNames_place : (list.place delegation).DistinctNames ↔
    (∀ other ∈ list.items, other.name ≠ delegation.name) ∧ list.DistinctNames := by
  unfold DistinctNames
  rw [(place_perm.map Delegation.name).nodup_iff, List.map_cons, List.nodup_cons]
  simp

theorem DistinctNames.eraseIf (distinct : list.DistinctNames) (test : Delegation → Bool) :
    (list.eraseIf test).2.DistinctNames :=
  distinct.sublist (List.filter_sublist.map Delegation.name)

theorem DistinctNames.insert (distinct : list.DistinctNames) (delegation : Delegation)
    {policy : ConflictPolicy} (resolves : policy ≠ .append) :
    (list.insert delegation policy).2.DistinctNames := by
  cases policy with
  | replace =>
    refine distinctNames_place.mpr ⟨?_, distinct.eraseIf _⟩
    intro other mem
    simpa using (List.mem_filter.mp mem).2
  | append => exact absurd rfl resolves
  | skip =>
    rw [insert_skip]
    split
    · exact distinct
    · rename_i absent
      exact distinctNames_place.mpr ⟨by simpa using absent, distinct⟩

namespace Operation

/-- The operation brings no name in twice: it is no load, and if it inserts, it looks for the name. -/
def Resolves : Operation → Prop
  | insert _ policy => policy ≠ .append
  | load _ _ => False
  | _ => True

theorem distinctNames_apply {operation : Operation} (resolves : operation.Resolves)
    (distinct : list.DistinctNames) : (operation.apply list).DistinctNames := by
  cases operation with
  | insert delegation policy => exact distinct.insert delegation resolves
  | erase _ _ | eraseName _ | eraseDelegation _ => exact distinct.eraseIf _
  | sort => exact (distinctNames_of_perm (sort_perm list)).mpr distinct
  | copy => exact distinct
  | load _ _ => exact absurd resolves id

end Operation

theorem distinctNames_run {operations : List Operation}
    (resolve : ∀ operation ∈ operations, operation.Resolves) (distinct : list.DistinctNames) :
    (run operations list).DistinctNames := by
  apply List.foldlRecOn operations _ distinct
  intro before distinct operation mem
  exact Operation.distinctNames_apply (resolve operation mem) distinct

theorem eraseDelegation_eq (list : DelegationList) (delegation : Delegation) :
    list.eraseDelegation delegation = list.eraseIf (· == delegation) := by
  unfold eraseDelegation erase
  congr 1
  funext other
  rw [Bool.eq_iff_iff]
  cases other
  cases delegation
  simp

/-- Inserting adds one delegation or is refused, erasing takes out just what it is asked to, and either
leaves all others in the order that they had. So once no name occurs twice, none does after edits that
look for the name, and after sorting. -/
theorem edits_keep_others_in_order (reachable : list.Reachable) :
    (∀ delegation policy, Inserts delegation policy list (list.insert delegation policy)) ∧
      (∀ preference name, Erases (fun delegation => delegation.preference == preference &&
        delegation.name == name) list (list.erase preference name)) ∧
      (∀ delegation, Erases (· == delegation) list (list.eraseDelegation delegation)) ∧
      (∀ name, Erases (·.name == name) list (list.eraseName name)) ∧
      ∀ operations : List Operation, (∀ operation ∈ operations, operation.Resolves) →
        list.DistinctNames → (run operations list).DistinctNames := by
  refine ⟨inserts_insert reachable.ordered, ?_, ?_, ?_, ?_⟩
  · intro preference name
    exact erases_eraseIf _ list
  · intro delegation
    rw [eraseDelegation_eq]
    exact erases_eraseIf _ list
  · intro name
    exact erases_eraseIf _ list
  · intro operations
    exact distinctNames_run

theorem edits_keep_others_in_order_replaced : Inserts ⟨10, ⟨[.generic [98]]⟩⟩ .replace
    ⟨true, [⟨5, ⟨[.generic [98]]⟩⟩, ⟨10, ⟨[.generic [97]]⟩⟩, ⟨20, ⟨[.generic [98]]⟩⟩]⟩
    (true, ⟨true, [⟨10, ⟨[.generic [97]]⟩⟩, ⟨10, ⟨[.generic [98]]⟩⟩]⟩) := by
  have reachable : Reachable
      ⟨true, [⟨5, ⟨[.generic [98]]⟩⟩, ⟨10, ⟨[.generic [97]]⟩⟩, ⟨20, ⟨[.generic [98]]⟩⟩]⟩ :=
    ⟨empty, [.insert ⟨20, ⟨[.generic [98]]⟩⟩ .append, .insert ⟨10, ⟨[.generic [97]]⟩⟩ .append,
      .insert ⟨5, ⟨[.generic [98]]⟩⟩ .append], .empty, by cbv⟩
  exact (edits_keep_others_in_order reachable).1 ⟨10, ⟨[.generic [98]]⟩⟩ .replace

end Delegations.DelegationList
