import Delegations.DelegationList.Decoding
import Delegations.Proofs.Order
import Delegations.Proofs.Reading

/-!
What loading does, in terms of the children of the element. Main statement: `attempt_load`, which
gives the answer and the list that is left, also where loading fails half way.
-/
namespace Delegations

namespace Delegation

/-- The delegations before the first element that holds none, and what is wrong with that one. -/
def leading : List Element → List Delegation × Option FormatError
  | [] => ([], none)
  | element :: rest =>
    match ofElement element with
    | .ok delegation => (delegation :: (leading rest).1, (leading rest).2)
    | .error fault => ([], some fault)

end Delegation

namespace DelegationList

open Delegation (leading)

variable {list : DelegationList} {element : Element} {sorted : Bool}

theorem run_placeElement : (placeElement element).run list =
    match Delegation.ofElement element with
    | .ok delegation => .ok () (list.place delegation)
    | .error fault => .error fault list := by
  unfold placeElement
  cases Delegation.ofElement element <;> rfl

theorem run_forM_placeElement (children : List Element) :
    (forM children placeElement).run list =
      match (leading children).2 with
      | none => .ok () (list.placeAll (leading children).1)
      | some fault => .error fault (list.placeAll (leading children).1) := by
  induction children generalizing list with
  | nil => rfl
  | cons child rest ih =>
    rw [List.forM_cons, EStateM.run_bind, run_placeElement]
    simp only [leading]
    cases Delegation.ofElement child with
    | ok delegation => exact ih
    | error fault => rfl

/-- The outcome of loading and the list that it leaves. The old list only matters where the type of
the element is refused. -/
theorem run_load : (load element sorted).run list =
    if isListType element.type then
      match element.children with
      | .error fault => .error (.malformed fault) ⟨sorted, []⟩
      | .ok children =>
        let loaded := placeAll (leading children).1 ⟨sorted, []⟩
        match (leading children).2 with
        | some fault => .error fault loaded
        | none => if loaded.isEmpty then .error .emptyList loaded else .ok () loaded
    else .error (.unexpectedListType element.type) list := by
  unfold load
  by_cases accepted : isListType element.type
  · simp only [accepted]
    cases element.children with
    | error fault => rfl
    | ok children =>
      simp only [Bool.not_true, Bool.false_eq_true, if_false, if_true,
        EStateM.run_bind, EStateM.run_set, EStateM.run_get, List.forM_eq_forM,
        run_forM_placeElement]
      cases (leading children).2 with
      | some fault => rfl
      | none =>
        dsimp only
        split <;> rfl
  · simp [accepted]

theorem isEmpty_placeAll {items : List Delegation} :
    (placeAll items ⟨sorted, []⟩).isEmpty = items.isEmpty :=
  placeAll_perm.isEmpty_eq

def verdict (children : List Element) : Except FormatError Unit :=
  match (leading children).2 with
  | some fault => .error fault
  | none => if (leading children).1.isEmpty then .error .emptyList else .ok ()

theorem verdict_eq_ok_iff {children : List Element} : verdict children = .ok () ↔
    (leading children).2 = none ∧ (leading children).1 ≠ [] := by
  unfold verdict
  cases (leading children).2 with
  | some fault => simp
  | none => simp

theorem attempt_load : attempt (load element sorted) list =
    if isListType element.type then
      match element.children with
      | .error fault => (.error (.malformed fault), ⟨sorted, []⟩)
      | .ok children => (verdict children, placeAll (leading children).1 ⟨sorted, []⟩)
    else (.error (.unexpectedListType element.type), list) := by
  unfold attempt
  rw [run_load]
  by_cases accepted : isListType element.type
  · rw [if_pos accepted, if_pos accepted]
    cases element.children with
    | error fault => rfl
    | ok children =>
      simp only [verdict, isEmpty_placeAll]
      cases (leading children).2 with
      | some fault => rfl
      | none => cases (leading children).1 <;> rfl
  · rw [if_neg accepted, if_neg accepted]

theorem ofElement_eq_ok_iff_attempt : ofElement element sorted = .ok list ↔
    attempt (load element sorted) empty = (.ok (), list) := by
  unfold ofElement attempt
  cases (load element sorted).run empty with
  | ok _ loaded => simp
  | error fault _ => simp

theorem ofWire_eq_ok_iff_ofElement {wire : List UInt8} : ofWire wire sorted = .ok list ↔
    ∃ element, Element.decode wire = .ok element ∧ ofElement element sorted = .ok list := by
  unfold ofWire
  simp only [except_bind_eq_ok, mapError_eq_ok_iff]

end DelegationList

end Delegations
