import Delegations.Proofs.DelegationList.Sorting

/-!
Edits, which put a delegation into a list or erase some. Main statement: it makes no difference
whether a list is sorted before a run of edits or after it, neither to the list that comes out nor
to what the callers are told on the way (`performAll_sort`).
-/
namespace Delegations.DelegationList

inductive Edit where
  | insert (delegation : Delegation) (policy : ConflictPolicy)
  | erase (preference : UInt64) (name : Name)
  | eraseName (name : Name)
  | eraseDelegation (delegation : Delegation)

inductive Report where
  | taken (whether : Bool)
  | erased (count : Nat)
deriving DecidableEq

variable {left right : DelegationList}

/-! Lists of the same delegations differ only in order, which an edit does not look at. -/

theorem eraseIf_of_perm (test : Delegation → Bool) (perm : left.items.Perm right.items) :
    (left.eraseIf test).1 = (right.eraseIf test).1 ∧
      (left.eraseIf test).2.items.Perm (right.eraseIf test).2.items := by
  have kept := perm.filter (!test ·)
  refine ⟨?_, kept⟩
  simp only [eraseIf, perm.length_eq, kept.length_eq]

theorem place_of_perm (delegation : Delegation) (perm : left.items.Perm right.items) :
    (left.place delegation).items.Perm (right.place delegation).items :=
  place_perm.trans ((perm.cons delegation).trans place_perm.symm)

theorem insert_of_perm (delegation : Delegation) (policy : ConflictPolicy)
    (perm : left.items.Perm right.items) :
    (left.insert delegation policy).1 = (right.insert delegation policy).1 ∧
      (left.insert delegation policy).2.items.Perm (right.insert delegation policy).2.items := by
  cases policy with
  | replace => exact ⟨rfl, place_of_perm delegation (eraseIf_of_perm _ perm).2⟩
  | append => exact ⟨rfl, place_of_perm delegation perm⟩
  | skip =>
    simp only [insert, perm.any_eq]
    split
    · exact ⟨rfl, perm⟩
    · exact ⟨rfl, place_of_perm delegation perm⟩

namespace Edit

def perform : Edit → StateM DelegationList Report
  | insert delegation policy => Report.taken <$> DelegationList.insert delegation policy
  | erase preference name => Report.erased <$> DelegationList.erase preference name
  | eraseName name => Report.erased <$> DelegationList.eraseName name
  | eraseDelegation delegation => Report.erased <$> DelegationList.eraseDelegation delegation

def operation : Edit → Operation
  | insert delegation policy => .insert delegation policy
  | erase preference name => .erase preference name
  | eraseName name => .eraseName name
  | eraseDelegation delegation => .eraseDelegation delegation

variable {list : DelegationList} (edit : Edit)

theorem perform_eq_apply : (edit.perform list).2 = edit.operation.apply list := by
  cases edit <;> rfl

@[simp] theorem isSorted_perform : (edit.perform list).2.isSorted = list.isSorted := by
  rw [perform_eq_apply, Operation.isSorted_apply]
  cases edit <;> rfl

theorem perform_of_perm (perm : left.items.Perm right.items) :
    (edit.perform left).1 = (edit.perform right).1 ∧
      (edit.perform left).2.items.Perm (edit.perform right).2.items := by
  cases edit with
  | insert delegation policy =>
    obtain ⟨told, items⟩ := insert_of_perm delegation policy perm
    exact ⟨congrArg Report.taken told, items⟩
  | erase _ _ | eraseName _ | eraseDelegation _ =>
    obtain ⟨told, items⟩ := eraseIf_of_perm _ perm
    exact ⟨congrArg Report.erased told, items⟩

/-- What an edit makes of the sorted list is in order and has the same delegations as what it makes
of the list, so that sorting the latter gives the former. -/
theorem perform_sort (list : DelegationList) :
    edit.perform list.sort = ((edit.perform list).1, (edit.perform list).2.sort) := by
  have flagAfter : (edit.perform list).2.isSorted = list.isSorted := edit.isSorted_perform
  -- Sorting leaves a list that counts as sorted alone, so that nothing need be known of its order.
  cases flag : list.isSorted with
  | true =>
    rw [flag] at flagAfter
    rw [sort_of_isSorted flag, sort_of_isSorted flagAfter]
    rfl
  | false =>
    rw [flag] at flagAfter
    obtain ⟨told, perm⟩ := edit.perform_of_perm (sort_perm list)
    have sortedFirst : Arranges (edit.perform list).2.items true (edit.perform list.sort).2 := by
      have flagSorted : (edit.perform list.sort).2.isSorted = true := by
        rw [isSorted_perform, isSorted_sort]
      have ordered : (edit.perform list.sort).2.Ordered := by
        rw [perform_eq_apply]
        exact edit.operation.ordered_apply fun _ => (arranges_sort flag).2.2
      exact ⟨flagSorted, perm, ordered flagSorted⟩
    exact Prod.ext told (sortedFirst.unique (arranges_sort flagAfter))

end Edit

def performAll (edits : List Edit) : StateM DelegationList (List Report) :=
  edits.mapM Edit.perform

/-- The reports of a run of edits and the list that it ends with do not depend on whether the list
is sorted before the run or after it. -/
theorem performAll_sort (edits : List Edit) (list : DelegationList) :
    performAll edits list.sort = ((performAll edits list).1, (performAll edits list).2.sort) ∧
      (performAll edits list.sort).2.isSorted ∧ (performAll edits list).2.sort.isSorted := by
  have commutes : performAll edits list.sort =
      ((performAll edits list).1, (performAll edits list).2.sort) := by
    induction edits generalizing list with
    | nil => rfl
    | cons edit rest ih =>
      unfold performAll at ih ⊢
      rw [mapM_state_cons, mapM_state_cons, Edit.perform_sort, ih]
  refine ⟨commutes, ?_, isSorted_sort⟩
  rw [commutes]
  exact isSorted_sort

end Delegations.DelegationList
