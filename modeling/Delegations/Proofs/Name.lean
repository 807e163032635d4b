import Delegations.Name
import Delegations.Proofs.Element

/-!
The forms of components and names. Main statements: a name is read from exactly the elements of its
type whose value is a sequence of forms of its components (`ofElement_eq_ok_iff`), it is written in
its shortest form (`writes_prepend`), and any other form of it is longer (`Form.trims`).
-/
namespace Delegations

theorem length_le_length_flatMap {α β : Type} (f : α → List β) {item : α} {items : List α}
    (mem : item ∈ items) : (f item).length ≤ (items.flatMap f).length := by
  rw [List.flatMap_def]
  exact (List.sublist_flatten_of_mem (List.mem_map_of_mem mem)).length_le

namespace Component

def Form (component : Component) (bytes : List UInt8) : Prop :=
  Element.Form component.type component.value bytes

variable {component : Component} {bytes : List UInt8}

theorem ofElement_eq_ok_iff {element : Element} : ofElement element = .ok component ↔
    element.type = component.type ∧ element.value = component.value := by
  unfold ofElement ofParts
  refine ⟨?_, ?_⟩
  · intro h
    split at h
    · cases h
      exact ⟨rfl, rfl⟩
    · cases h
  · intro h
    rcases h with ⟨sameType, sameValue⟩
    rw [sameType, sameValue, dif_pos ⟨component.type_pos, component.type_le⟩]

theorem form_iff : Form component bytes ↔ ∃ element : Element,
    element.WellFormed ∧ element.wire = bytes ∧ ofElement element = .ok component := by
  simp only [ofElement_eq_ok_iff]
  exact Element.form_iff

def shortest (component : Component) : List UInt8 :=
  Element.shortest component.type component.value

theorem writes_prepend {σ : Type} [Sink σ] {Holds : σ → List UInt8 → Prop}
    (faithful : Sink.Faithful Holds) (component : Component) :
    Sink.Writes Holds component.prepend component.shortest :=
  Element.writes_prependElement faithful (faithful.prependBytes component.value)

theorem wire_eq (component : Component) : component.wire = component.shortest :=
  written_eq (writes_prepend Sink.faithful_list component)

theorem form_shortest (fits : component.shortest.length < 2 ^ 64) :
    Form component component.shortest := by
  have := Element.length_le_shortest component.type component.value
  unfold shortest at *
  exact Element.form_shortest (UInt32.ne_of_lt component.type_pos).symm (by omega)

theorem Form.trims (form : Form component bytes) : Trims component.shortest bytes :=
  Element.Form.trims form (Trims.refl _)

end Component

namespace Name

def Form (name : Name) (bytes : List UInt8) : Prop :=
  ∃ value, Element.Form TypeNumber.name value bytes ∧
    Sequence Component.Form name.components value

variable {name : Name} {bytes : List UInt8}

theorem ofElement_eq_ok_iff {element : Element} : ofElement element = .ok name ↔
    element.type = TypeNumber.name ∧ Sequence Component.Form name.components element.value := by
  have splits : Sequence Component.Form name.components element.value ↔ _ :=
    Sequence.iff_exists_elements fun _ _ => Component.form_iff
  rw [splits]
  unfold ofElement
  by_cases sameType : element.type = TypeNumber.name
  · simp only [sameType, ne_eq, not_true_eq_false, if_false, except_bind_eq_ok,
      Element.children_eq_ok_iff, mapM_eq_ok_iff, true_and]
    refine ⟨?_, ?_⟩
    · intro h
      rcases h with ⟨elements, ⟨wellFormed, wire⟩, components, readAll, same⟩
      cases same
      exact ⟨elements, wellFormed, wire, readAll⟩
    · intro h
      rcases h with ⟨elements, wellFormed, wire, readAll⟩
      exact ⟨elements, ⟨wellFormed, wire⟩, name.components, readAll, rfl⟩
  · simp [sameType, bind, Except.bind, throw, throwThe, MonadExceptOf.throw]

theorem form_iff : Form name bytes ↔ ∃ element : Element,
    element.WellFormed ∧ element.wire = bytes ∧ ofElement element = .ok name := by
  simp only [ofElement_eq_ok_iff]
  exact Element.exists_form_iff

def shortest (name : Name) : List UInt8 :=
  Element.shortest TypeNumber.name (name.components.flatMap Component.shortest)

theorem writes_prepend {σ : Type} [Sink σ] {Holds : σ → List UInt8 → Prop}
    (faithful : Sink.Faithful Holds) (name : Name) :
    Sink.Writes Holds name.prepend name.shortest := by
  apply Element.writes_prependElement faithful
  exact Sink.writes_prependEach (Component.writes_prepend faithful) name.components

theorem wire_eq (name : Name) : name.wire = name.shortest :=
  written_eq (writes_prepend Sink.faithful_list name)

theorem form_shortest (fits : name.shortest.length < 2 ^ 64) : Form name name.shortest := by
  have bound := Element.length_le_shortest TypeNumber.name
    (name.components.flatMap Component.shortest)
  unfold shortest at *
  refine ⟨_, Element.form_shortest (by decide) (by omega), Sequence.flatMap ?_⟩
  intro component mem
  have := length_le_length_flatMap Component.shortest mem
  exact Component.form_shortest (by omega)

theorem Form.trims (form : Form name bytes) : Trims name.shortest bytes := by
  rcases form with ⟨value, form, sequence⟩
  exact form.trims (sequence.trims fun _ _ => Component.Form.trims)

end Name

end Delegations
