import Delegations.Proofs.DelegationList.RoundTrip

/-!
Encoding steps on sinks of either kind. Main statement: a pass that only counts returns the same as
one that writes, step by step, and both sinks grow by what the steps return (`passes_agree`).
-/
namespace Delegations

inductive EncodingStep where
  | byte (value : UInt8)
  | bytes (front : List UInt8)
  | varNumber (n : UInt64)
  | integer (n : UInt64)
  | integerElement (type : UInt32) (n : UInt64)
  | element (whole : Element)
  | component (segment : Component)
  | name (path : Name)
  /-- The only step that can fail, which it does before anything is written. -/
  | list (delegations : DelegationList) (type : UInt32)

namespace Sink

variable {σ ε : Type} {Holds : σ → List UInt8 → Prop}

/-- The step puts the bytes of the outcome in front and returns their number, or it fails with the
error of the outcome and puts nothing in front. -/
def Prepends (Holds : σ → List UInt8 → Prop) (step : EStateM ε σ Nat)
    (outcome : Except ε (List UInt8)) : Prop :=
  ∀ sink bytes, Holds sink bytes →
    ∃ next, attempt step sink = (outcome.map List.length, next) ∧
      Holds next (outcome.toOption.getD [] ++ bytes)

theorem Writes.prepends {step : StateM σ Nat} {front : List UInt8}
    (writes : Writes Holds step front) :
    Prepends Holds (modifyGet step.run : EStateM ε σ Nat) (.ok front) := by
  intro sink bytes held
  obtain ⟨next, run, held⟩ := writes sink bytes held
  refine ⟨next, attempt_eq_ok_iff.mpr ?_, held⟩
  rw [EStateM.run_modifyGet, run]

end Sink

open Sink (Faithful Prepends)

variable {σ : Type} [Sink σ] {Holds : σ → List UInt8 → Prop}

namespace DelegationList

def encoding (list : DelegationList) (type : UInt32) : Except ListError (List UInt8) :=
  if !isListType type then .error (.usage (.listType type))
  else if list.isEmpty then .error (.format .emptyList)
  else .ok (shortest type list.items)

theorem attempt_prepend_of_error {list : DelegationList} {type : UInt32} {error : ListError}
    (refused : list.encoding type = .error error) (sink : σ) :
    attempt (list.prepend type) sink = (.error error, sink) := by
  unfold encoding at refused
  unfold attempt prepend
  split at refused
  · rename_i unlisted
    cases refused
    simp only [unlisted]
    rfl
  · rename_i accepted
    split at refused
    · rename_i empty
      cases refused
      simp only [accepted, empty]
      rfl
    · cases refused

theorem encoding_eq_ok_iff {list : DelegationList} {type : UInt32} {wire : List UInt8} :
    list.encoding type = .ok wire ↔
      isListType type ∧ list.items ≠ [] ∧ shortest type list.items = wire := by
  unfold encoding isEmpty
  cases isListType type <;> cases list.items <;> simp

theorem prepends_prepend (faithful : Faithful Holds) (list : DelegationList) (type : UInt32) :
    Prepends Holds (list.prepend type) (list.encoding type) := by
  intro sink bytes held
  cases outcome : list.encoding type with
  | error error => exact ⟨sink, attempt_prepend_of_error outcome sink, held⟩
  | ok wire =>
    obtain ⟨accepted, occupied, rfl⟩ := encoding_eq_ok_iff.mp outcome
    obtain ⟨next, run, held⟩ := run_prepend faithful occupied accepted held
    exact ⟨next, attempt_eq_ok_iff.mpr run, held⟩

end DelegationList

namespace EncodingStep

def perform : EncodingStep → EStateM ListError σ Nat
  | byte value => modifyGet (Sink.prependByte value).run
  | bytes front => modifyGet (Sink.prependBytes front).run
  | varNumber n => modifyGet (VarNumber.prepend n).run
  | integer n => modifyGet (NonNegativeInteger.prepend n).run
  | integerElement type n => modifyGet (NonNegativeInteger.prependElement type n).run
  | element whole => modifyGet whole.prepend.run
  | component segment => modifyGet segment.prepend.run
  | name path => modifyGet path.prepend.run
  | list delegations type => delegations.prepend type

def encoding : EncodingStep → Except ListError (List UInt8)
  | byte value => .ok [value]
  | bytes front => .ok front
  | varNumber n => .ok (VarNumber.shortest n)
  | integer n => .ok (NonNegativeInteger.shortest n)
  | integerElement type n => .ok (Element.shortest type (NonNegativeInteger.shortest n))
  | element whole => .ok whole.wire
  | component segment => .ok segment.shortest
  | name path => .ok path.shortest
  | list delegations type => delegations.encoding type

theorem prepends_perform (faithful : Faithful Holds) (step : EncodingStep) :
    Prepends Holds step.perform step.encoding := by
  cases step with
  | byte value => exact (faithful.prependByte value).prepends
  | bytes front => exact (faithful.prependBytes front).prepends
  | varNumber n => exact (VarNumber.writes_prepend faithful n).prepends
  | integer n => exact (NonNegativeInteger.writes_prepend faithful n).prepends
  | integerElement type n =>
    have writes := NonNegativeInteger.writes_prepend faithful n
    exact (Element.writes_prependElement faithful writes).prepends
  | element whole => exact (faithful.prependBytes whole.wire).prepends
  | component segment => exact (Component.writes_prepend faithful segment).prepends
  | name path => exact (Name.writes_prepend faithful path).prepends
  | list delegations type => exact delegations.prepends_prepend faithful type

def performAll (steps : List EncodingStep) : StateM σ (List (Except ListError Nat)) :=
  steps.mapM fun step => attempt step.perform

/-- The bytes of all the steps; those of the last one come first. -/
def written (steps : List EncodingStep) : List UInt8 :=
  steps.reverse.flatMap fun step => step.encoding.toOption.getD []

theorem performAll_eq (faithful : Faithful Holds) (steps : List EncodingStep) {sink : σ}
    {bytes : List UInt8} (held : Holds sink bytes) :
    ∃ next, performAll steps sink = (steps.map fun step => step.encoding.map List.length, next) ∧
      Holds next (written steps ++ bytes) := by
  induction steps generalizing sink bytes with
  | nil => exact ⟨sink, rfl, held⟩
  | cons step rest ih =>
    obtain ⟨middle, run, heldMiddle⟩ := step.prepends_perform faithful sink bytes held
    obtain ⟨next, runRest, heldNext⟩ := ih heldMiddle
    refine ⟨next, ?_, ?_⟩
    · unfold performAll at runRest ⊢
      rw [mapM_state_cons, run, runRest]
      rfl
    · simp only [written, List.reverse_cons, List.flatMap_append, List.flatMap_singleton,
        List.append_assoc]
      exact heldNext

/-- At every step the pass that counts and the pass that writes return the same, and the size of
either sink has grown by just that, or not at all where the step failed. -/
theorem passes_agree (capacity : Nat) (steps : List EncodingStep) (step : EncodingStep) :
    ∃ results result, ∃ count countAfter : ByteCount, ∃ buffer bufferAfter : Buffer,
      performAll steps ({} : ByteCount) = (results, count) ∧
      performAll steps (Buffer.withCapacity capacity) = (results, buffer) ∧
      Sink.size count = buffer.size ∧ Sink.size buffer = buffer.size ∧
      attempt step.perform count = (result, countAfter) ∧
      attempt step.perform buffer = (result, bufferAfter) ∧
      Sink.size countAfter = bufferAfter.size ∧ Sink.size bufferAfter = bufferAfter.size ∧
      bufferAfter.size = buffer.size + result.toOption.getD 0 := by
  have fresh : ({} : ByteCount).count = ([] : List UInt8).length := rfl
  obtain ⟨count, runCount, heldCount⟩ := performAll_eq Sink.faithful_byteCount steps fresh
  obtain ⟨buffer, runBuffer, heldBuffer⟩ := performAll_eq Sink.faithful_buffer steps
    (Buffer.bytes_withCapacity capacity)
  obtain ⟨countAfter, runCountAfter, heldCountAfter⟩ :=
    step.prepends_perform Sink.faithful_byteCount count _ heldCount
  obtain ⟨bufferAfter, runBufferAfter, heldBufferAfter⟩ :=
    step.prepends_perform Sink.faithful_buffer buffer _ heldBuffer
  have size := Sink.faithful_buffer.size_eq heldBuffer
  have sizeAfter := Sink.faithful_buffer.size_eq heldBufferAfter
  refine ⟨_, _, count, countAfter, buffer, bufferAfter, runCount, runBuffer, ?_, rfl,
    runCountAfter, runBufferAfter, ?_, rfl, ?_⟩
  · exact heldCount.trans size.symm
  · exact heldCountAfter.trans sizeAfter.symm
  · have gained : (step.encoding.map List.length).toOption.getD 0 =
        (step.encoding.toOption.getD []).length := by
      cases step.encoding <;> rfl
    rw [gained, Nat.add_comm]
    rw [List.length_append, ← size] at sizeAfter
    exact sizeAfter

end EncodingStep

end Delegations
