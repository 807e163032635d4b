import Delegations.DelegationList.Decoding
import Delegations.Proofs.Name
import Delegations.Proofs.NonNegativeInteger

/-!
The forms of delegations. Main statements: a delegation is read from exactly the elements of its
type that begin with a preference and a name (`ofElement_eq_ok_iff`), it is written in its shortest
form (`writes_prepend`), and any other form of it is longer (`Form.trims`).
-/
namespace Delegations

namespace Delegation

def PreferenceForm (preference : UInt64) (bytes : List UInt8) : Prop :=
  ∃ value, Element.Form TypeNumber.preference value bytes ∧ NonNegativeInteger.Form preference value

def FurtherFields (bytes : List UInt8) : Prop :=
  ∃ fields : List (UInt32 × List UInt8),
    Sequence (fun field => Element.Form field.1 field.2) fields bytes

def Fields (delegation : Delegation) (bytes : List UInt8) : Prop :=
  ∃ front middle back, bytes = front ++ (middle ++ back) ∧
    PreferenceForm delegation.preference front ∧ Name.Form delegation.name middle ∧
      FurtherFields back

/-- The bytes are an element of the type of delegations, with the fields of this one in it. -/
def Form (delegation : Delegation) (bytes : List UInt8) : Prop :=
  ∃ value, Element.Form TypeNumber.delegation value bytes ∧ Fields delegation value

variable {delegation : Delegation} {bytes : List UInt8}

theorem furtherFields_iff : FurtherFields bytes ↔ ∃ elements : List Element,
    (∀ element ∈ elements, element.WellFormed) ∧ elements.flatMap Element.wire = bytes := by
  unfold FurtherFields
  have splits (fields : List (UInt32 × List UInt8)) :
      Sequence (fun field => Element.Form field.1 field.2) fields bytes ↔ _ :=
    Sequence.iff_exists_elements fun _ _ => Element.form_iff
  simp only [splits]
  refine ⟨?_, ?_⟩
  · intro h
    rcases h with ⟨_, elements, wellFormed, wire, _⟩
    exact ⟨elements, wellFormed, wire⟩
  · intro h
    rcases h with ⟨elements, wellFormed, wire⟩
    refine ⟨elements.map fun element => (element.type, element.value), elements, wellFormed, wire, ?_⟩
    rw [List.forall₂_map_right_iff, List.forall₂_same]
    intro element _
    exact ⟨rfl, rfl⟩

theorem preferenceField_eq_ok_iff {field : Option Element} {n : UInt64} :
    preferenceField field = .ok n ↔ ∃ element, field = some element ∧
      element.type = TypeNumber.preference ∧ NonNegativeInteger.Form n element.value := by
  cases field with
  | none => simp [preferenceField]
  | some element =>
    unfold preferenceField NonNegativeInteger.ofElement
    by_cases sameType : element.type = TypeNumber.preference
    · simp [sameType, mapError_eq_ok_iff, NonNegativeInteger.decode_eq_ok_iff]
    · simp [sameType]

theorem nameField_eq_ok_iff {field : Option Element} {name : Name} :
    nameField field = .ok name ↔ ∃ element, field = some element ∧
      element.type = TypeNumber.name ∧ Sequence Component.Form name.components element.value := by
  cases field with
  | none => simp [nameField]
  | some element =>
    unfold nameField
    by_cases sameType : element.type = TypeNumber.name
    · simp [sameType, mapError_eq_ok_iff, Name.ofElement_eq_ok_iff]
    · simp [sameType]

theorem fields_iff : Fields delegation bytes ↔ ∃ elements : List Element,
    ((∀ element ∈ elements, element.WellFormed) ∧ elements.flatMap Element.wire = bytes) ∧
      preferenceField elements[0]? = .ok delegation.preference ∧
        nameField elements[1]? = .ok delegation.name := by
  unfold Fields PreferenceForm Name.Form
  simp only [Element.exists_form_iff, furtherFields_iff, preferenceField_eq_ok_iff,
    nameField_eq_ok_iff]
  refine ⟨?_, ?_⟩
  · intro h
    rcases h with ⟨_, _, _, rfl, ⟨first, wellFirst, rfl, typeFirst, preference⟩,
      ⟨second, wellSecond, rfl, typeSecond, name⟩, ⟨further, wellFormed, rfl⟩⟩
    refine ⟨first :: second :: further, ⟨?_, rfl⟩, ?_, ?_⟩
    · exact List.forall_mem_cons.mpr ⟨wellFirst, List.forall_mem_cons.mpr ⟨wellSecond, wellFormed⟩⟩
    · exact ⟨first, rfl, typeFirst, preference⟩
    · exact ⟨second, rfl, typeSecond, name⟩
  · intro h
    rcases h with ⟨elements, ⟨wellFormed, rfl⟩, ⟨first, atFirst, typeFirst, preference⟩,
      ⟨second, atSecond, typeSecond, name⟩⟩
    match elements, atFirst, atSecond with
    | first :: second :: further, rfl, rfl =>
      obtain ⟨wellFirst, wellFormed⟩ := List.forall_mem_cons.mp wellFormed
      obtain ⟨wellSecond, wellFormed⟩ := List.forall_mem_cons.mp wellFormed
      refine ⟨_, _, _, rfl, ?_, ?_, ?_⟩
      · exact ⟨first, wellFirst, rfl, typeFirst, preference⟩
      · exact ⟨second, wellSecond, rfl, typeSecond, name⟩
      · exact ⟨further, wellFormed, rfl⟩

theorem ofElement_eq_ok_iff {element : Element} : ofElement element = .ok delegation ↔
    element.type = TypeNumber.delegation ∧ Fields delegation element.value := by
  rw [fields_iff]
  unfold ofElement
  by_cases sameType : element.type = TypeNumber.delegation
  · simp only [sameType, ne_eq, not_true_eq_false, if_false, except_bind_eq_ok,
      mapError_eq_ok_iff, Element.children_eq_ok_iff, true_and]
    refine exists_congr fun elements => and_congr_right fun _ => ?_
    refine ⟨?_, ?_⟩
    · intro h
      rcases h with ⟨preference, first, name, second, same⟩
      cases same
      exact ⟨first, second⟩
    · intro h
      rcases h with ⟨first, second⟩
      exact ⟨delegation.preference, first, delegation.name, second, rfl⟩
  · simp [sameType, bind, Except.bind, throw, throwThe, MonadExceptOf.throw]

theorem form_iff : Form delegation bytes ↔ ∃ element : Element,
    element.WellFormed ∧ element.wire = bytes ∧ ofElement element = .ok delegation := by
  simp only [ofElement_eq_ok_iff]
  exact Element.exists_form_iff

theorem sequence_iff {items : List Delegation} : Sequence Form items bytes ↔
    ∃ elements : List Element, (∀ element ∈ elements, element.WellFormed) ∧
      elements.flatMap Element.wire = bytes ∧
        List.Forall₂ (fun element delegation => ofElement element = .ok delegation) elements items :=
  Sequence.iff_exists_elements fun _ _ => form_iff

theorem preferenceForm_shortest (n : UInt64) :
    PreferenceForm n (Element.shortest TypeNumber.preference (NonNegativeInteger.shortest n)) := by
  have narrow : NonNegativeInteger.size n ≤ 8 := by
    rw [NonNegativeInteger.size_eq]
    split_ifs <;> decide
  refine ⟨_, Element.form_shortest (by decide) ?_, NonNegativeInteger.form_shortest n⟩
  rw [NonNegativeInteger.length_shortest]
  omega

def shortest (delegation : Delegation) : List UInt8 :=
  Element.shortest TypeNumber.delegation
    (Element.shortest TypeNumber.preference (NonNegativeInteger.shortest delegation.preference) ++
      delegation.name.shortest)

theorem writes_prepend {σ : Type} [Sink σ] {Holds : σ → List UInt8 → Prop}
    (faithful : Sink.Faithful Holds) (delegation : Delegation) :
    Sink.Writes Holds delegation.prepend delegation.shortest := by
  apply Element.writes_prependElement faithful
  apply (Name.writes_prepend faithful delegation.name).andThen
  apply Element.writes_prependElement faithful
  exact NonNegativeInteger.writes_prepend faithful delegation.preference

def wire (delegation : Delegation) : List UInt8 := written delegation.prepend

theorem wire_eq (delegation : Delegation) : delegation.wire = delegation.shortest :=
  written_eq (writes_prepend Sink.faithful_list delegation)

theorem form_shortest (fits : delegation.shortest.length < 2 ^ 64) :
    Form delegation delegation.shortest := by
  unfold shortest at *
  have bound := Nat.lt_of_le_of_lt (Element.length_le_shortest _ _) fits
  refine ⟨_, Element.form_shortest (by decide) bound, ?_⟩
  rw [List.length_append] at bound
  refine ⟨_, delegation.name.shortest, [], ?_, preferenceForm_shortest delegation.preference,
    Name.form_shortest (by omega), [], .nil⟩
  rw [List.append_nil]

theorem Form.trims (form : Form delegation bytes) : Trims delegation.shortest bytes := by
  rcases form with ⟨_, form, front, middle, back, rfl, ⟨_, formFront, preference⟩, name, _⟩
  apply form.trims
  have trimsFront := formFront.trims preference.trims
  have trimsBack := name.trims.append (Trims.nil back)
  rw [List.append_nil] at trimsBack
  exact trimsFront.append trimsBack

end Delegation

end Delegations
