import Delegations.Proofs.Framing
import Delegations.Proofs.Name

/-!
Names read from elements. Main statement: what reading comes to is settled by the type of the
element, then by its framing and only then by the types of the components, and what was read is
written in no more bytes than it was read from (`round_trip_shortest`).
-/
namespace Delegations

def Component.InRange (type : UInt32) : Prop := type ≤ TypeNumber.largestComponent

namespace Component

variable {element : Element}

theorem exists_ofElement_iff (wellFormed : element.WellFormed) :
    (∃ component, ofElement element = .ok component) ↔ InRange element.type := by
  constructor
  · rintro ⟨component, read⟩
    rw [(ofElement_eq_ok_iff.mp read).1]
    exact component.type_le
  · intro inRange
    have positive : 0 < element.type := UInt32.pos_iff_ne_zero.mpr wellFormed.1
    exact ⟨⟨element.type, element.value, positive, inRange⟩, ofElement_eq_ok_iff.mpr ⟨rfl, rfl⟩⟩

theorem ofElement_eq_error_iff (wellFormed : element.WellFormed) {fault : TlvError} :
    ofElement element = .error fault ↔
      ¬InRange element.type ∧ fault = .componentTypeOutOfRange element.type := by
  have positive : 0 < element.type := UInt32.pos_iff_ne_zero.mpr wellFormed.1
  unfold ofElement ofParts InRange
  split
  · rename_i accepted
    simp [accepted.2]
  · rename_i refused
    simp only [positive, true_and] at refused
    simp [refused, eq_comm]

theorem mapM_ofElement_eq_error_iff {children : List Element}
    (wellFormed : ∀ child ∈ children, child.WellFormed) {fault : TlvError} :
    children.mapM ofElement = .error fault ↔
      ∃ before child after, children = before ++ child :: after ∧
        (∀ earlier ∈ before, InRange earlier.type) ∧
          ¬InRange child.type ∧ fault = .componentTypeOutOfRange child.type := by
  rw [mapM_eq_error_iff]
  refine exists_congr fun before => exists_congr fun child => exists_congr fun after => ?_
  apply and_congr_right
  rintro rfl
  apply and_congr
  · refine forall₂_congr fun earlier mem => ?_
    exact exists_ofElement_iff (wellFormed earlier (List.mem_append_left _ mem))
  · exact ofElement_eq_error_iff (wellFormed child List.mem_append_cons_self)

end Component

namespace Name

variable {element : Element} {name : Name}

/-- What an element comes to when it is read as a name. Of several faults in it, the first constructor
that applies decides. -/
inductive Outcome (element : Element) : Except TlvError Name → Prop
  | otherType : element.type ≠ TypeNumber.name →
      Outcome element (.error (.unexpectedType TypeNumber.name element.type))
  /-- The types of the elements in front of the fault do not matter. -/
  | framing {whole : List Element} {fault : TlvError} : element.type = TypeNumber.name →
      Element.Breaks element.value whole fault → Outcome element (.error fault)
  | componentType {before after : List Element} {child : Element} :
      element.type = TypeNumber.name → element.SplitsInto (before ++ child :: after) →
      (∀ earlier ∈ before, Component.InRange earlier.type) → ¬Component.InRange child.type →
      Outcome element (.error (.componentTypeOutOfRange child.type))
  | complete {children : List Element} {name : Name} : element.type = TypeNumber.name →
      element.SplitsInto children →
      List.Forall₂ (fun child component => child.type = component.type ∧
        child.value = component.value) children name.components → Outcome element (.ok name)

theorem ofElement_of_children {children : List Element} (sameType : element.type = TypeNumber.name)
    (split : element.children = .ok children) :
    ofElement element = (children.mapM Component.ofElement).map Name.mk := by
  unfold ofElement
  rw [if_neg (not_not_intro sameType), split]
  change (children.mapM Component.ofElement >>= fun components => pure (Name.mk components)) = _
  cases children.mapM Component.ofElement <;> rfl

theorem ofElement_of_framing {fault : TlvError} (sameType : element.type = TypeNumber.name)
    (broken : element.children = .error fault) : ofElement element = .error fault := by
  unfold ofElement
  rw [if_neg (not_not_intro sameType), broken]
  rfl

theorem outcome_ofElement (element : Element) : Outcome element (ofElement element) := by
  by_cases sameType : element.type = TypeNumber.name
  · cases split : element.children with
    | error fault =>
      obtain ⟨whole, breaks⟩ := Element.children_eq_error_iff.mp split
      rw [ofElement_of_framing sameType split]
      exact .framing sameType breaks
    | ok children =>
      have splits : element.SplitsInto children := Element.children_eq_ok_iff.mp split
      rw [ofElement_of_children sameType split]
      cases components : children.mapM Component.ofElement with
      | error fault =>
        obtain ⟨before, child, after, rfl, inRange, outOfRange, rfl⟩ :=
          (Component.mapM_ofElement_eq_error_iff splits.1).mp components
        exact .componentType sameType splits inRange outOfRange
      | ok components' =>
        have read := mapM_eq_ok_iff.mp components
        simp only [Component.ofElement_eq_ok_iff] at read
        exact .complete sameType splits read
  · unfold ofElement
    rw [if_pos sameType]
    exact .otherType sameType

theorem ofElement_of_outcome {outcome : Except TlvError Name} (h : Outcome element outcome) :
    ofElement element = outcome := by
  cases h with
  | otherType other =>
    unfold ofElement
    rw [if_pos other]
    rfl
  | framing sameType breaks =>
    exact ofElement_of_framing sameType (Element.children_eq_error_iff.mpr ⟨_, breaks⟩)
  | componentType sameType splits inRange outOfRange =>
    have failed := (Component.mapM_ofElement_eq_error_iff splits.1).mpr
      ⟨_, _, _, rfl, inRange, outOfRange, rfl⟩
    rw [ofElement_of_children sameType (Element.children_eq_ok_iff.mpr splits), failed]
    rfl
  | complete sameType splits components =>
    rename_i children name
    have read : children.mapM Component.ofElement = .ok name.components := by
      simp only [mapM_eq_ok_iff, Component.ofElement_eq_ok_iff]
      exact components
    rw [ofElement_of_children sameType (Element.children_eq_ok_iff.mpr splits), read]
    rfl

theorem ofElement_eq_iff {outcome : Except TlvError Name} :
    ofElement element = outcome ↔ Outcome element outcome := by
  constructor
  · rintro rfl
    exact outcome_ofElement element
  · exact ofElement_of_outcome

theorem ofElement_written (fits : name.wire.length < 2 ^ 64) :
    ∃ element, Element.decode name.wire = .ok element ∧ ofElement element = .ok name := by
  rw [wire_eq] at *
  obtain ⟨element, wellFormed, wire, read⟩ := form_iff.mp (form_shortest fits)
  exact ⟨element, Element.decode_eq_ok_iff.mpr ⟨wellFormed, wire⟩, read⟩

theorem trims_of_ofElement (wellFormed : element.WellFormed) (read : ofElement element = .ok name) :
    Trims name.wire element.wire := by
  rw [wire_eq]
  exact Form.trims (form_iff.mpr ⟨element, wellFormed, rfl, read⟩)

theorem exists_ofElement_iff_of_children {children : List Element}
    (sameType : element.type = TypeNumber.name) (splits : element.SplitsInto children) :
    (∃ name, ofElement element = .ok name) ↔ ∀ child ∈ children, Component.InRange child.type := by
  have components : (∀ child ∈ children, Component.InRange child.type) ↔
      ∃ components, children.mapM Component.ofElement = .ok components := by
    rw [exists_mapM_eq_ok_iff]
    exact forall₂_congr fun child mem => (Component.exists_ofElement_iff (splits.1 child mem)).symm
  rw [components, ofElement_of_children sameType (Element.children_eq_ok_iff.mpr splits)]
  cases children.mapM Component.ofElement <;> simp [Except.map]

theorem exists_ofElement_iff : (∃ name, ofElement element = .ok name) ↔
    element.type = TypeNumber.name ∧ ∃ children, element.SplitsInto children ∧
      ∀ child ∈ children, Component.InRange child.type := by
  constructor
  · rintro ⟨name, read⟩
    cases ofElement_eq_iff.mp read with
    | complete sameType splits _ =>
      exact ⟨sameType, _, splits, (exists_ofElement_iff_of_children sameType splits).mp ⟨name, read⟩⟩
  · rintro ⟨sameType, children, splits, inRange⟩
    exact (exists_ofElement_iff_of_children sameType splits).mpr inRange

/-- A name is written in front of whatever a buffer holds and read back from what was written. From
other bytes a name is read exactly if they have its type, split into elements and hold no type that is
out of range for a component. A fault in the framing goes before such a type wherever that stands, and
no bytes that a name is read from are fewer than those that it is written as. -/
theorem round_trip_shortest :
    (∀ name : Name, name.wire.length < 2 ^ 64 →
      (∀ buffer : Buffer, ∃ after, name.prepend.run buffer = (name.wire.length, after) ∧
        after.bytes = name.wire ++ buffer.bytes) ∧
      ∃ element, Element.decode name.wire = .ok element ∧ ofElement element = .ok name) ∧
    ∀ input element used, Element.read input = .ok (element, used) →
      ((∃ name, ofElement element = .ok name) ↔
        element.type = TypeNumber.name ∧ ∃ children, element.SplitsInto children ∧
          ∀ child ∈ children, child.type ≤ TypeNumber.largestComponent) ∧
      (∀ whole fault, element.type = TypeNumber.name → Element.Breaks element.value whole fault →
        ofElement element = .error fault) ∧
      (∀ outcome, ofElement element = outcome ↔ Outcome element outcome) ∧
      ∀ name, ofElement element = .ok name → name.wire.length ≤ element.wire.length ∧
        (name.wire.length = element.wire.length → name.wire = element.wire) := by
  constructor
  · intro name fits
    constructor
    · intro buffer
      rw [wire_eq]
      exact writes_prepend Sink.faithful_buffer name buffer _ rfl
    · exact ofElement_written fits
  · intro input element used found
    obtain ⟨wellFormed, _⟩ := Element.read_eq_ok_iff.mp found
    refine ⟨exists_ofElement_iff, ?_, fun _ => ofElement_eq_iff, ?_⟩
    · intro whole fault sameType breaks
      exact ofElement_eq_iff.mpr (.framing sameType breaks)
    · intro name read
      exact trims_of_ofElement wellFormed read

theorem round_trip_shortest_cut : ofElement ⟨7, [7, 253, 0, 8], [254, 0, 1, 0, 0, 0, 8, 2]⟩ =
    .error (.lengthExceedsInput 2 0) := by
  have found : Element.read [7, 253, 0, 8, 254, 0, 1, 0, 0, 0, 8, 2] =
      .ok (⟨7, [7, 253, 0, 8], [254, 0, 1, 0, 0, 0, 8, 2]⟩, 12) := by cbv
  have sound : Element.decode [254, 0, 1, 0, 0, 0] = .ok ⟨65536, [254, 0, 1, 0, 0, 0], []⟩ := by cbv
  have wellFormed := (Element.decode_eq_ok_iff.mp sound).1
  have cut : Element.Fault [8, 2] (.lengthExceedsInput 2 0) :=
    @Element.Fault.lengthExceedsInput 8 2 [8] [2] [] (by decide) (.byte 8 (by decide))
      (.byte 2 (by decide)) (by decide)
  exact (round_trip_shortest.2 _ _ _ found).2.1 [⟨65536, [254, 0, 1, 0, 0, 0], []⟩] _ rfl
    ⟨List.forall_mem_singleton.mpr wellFormed, [8, 2], List.cons_ne_nil _ _, rfl, cut⟩

end Name

end Delegations
