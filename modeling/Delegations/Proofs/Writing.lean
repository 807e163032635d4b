import Mathlib
import Delegations.Sink
import Delegations.Element

/-!
What a step prepends, whatever sink it runs on. A sink is related to the bytes that it has taken;
the steps of an encoder then compose without another look at the sink.
-/
namespace Delegations

namespace Sink

variable {σ α β : Type} {Holds : σ → List UInt8 → Prop}

/-- The step puts `front` before the bytes that the sink has taken, and returns its length. -/
def Writes (Holds : σ → List UInt8 → Prop) (step : StateM σ Nat) (front : List UInt8) : Prop :=
  ∀ sink bytes, Holds sink bytes →
    ∃ next, step.run sink = (front.length, next) ∧ Holds next (front ++ bytes)

theorem run_bind_of_run {step : StateM σ α} {next : α → StateM σ β} {sink after : σ} {a : α}
    (run : step.run sink = (a, after)) : (step >>= next).run sink = (next a).run after := by
  change (next (step.run sink).1).run (step.run sink).2 = _
  rw [run]

theorem writes_nothing : Writes Holds (pure 0) [] :=
  fun sink _ held => ⟨sink, rfl, held⟩

theorem Writes.andThen {first second : StateM σ Nat} {front back : List UInt8}
    (writesFirst : Writes Holds first back) (writesSecond : Writes Holds second front) :
    Writes Holds (do return (← first) + (← second)) (front ++ back) := by
  intro sink bytes held
  obtain ⟨middle, runFirst, held⟩ := writesFirst sink bytes held
  obtain ⟨last, runSecond, held⟩ := writesSecond middle _ held
  refine ⟨last, ?_, ?_⟩
  · rw [run_bind_of_run runFirst, run_bind_of_run runSecond, List.length_append, Nat.add_comm]
    rfl
  · rw [List.append_assoc]
    exact held

theorem writes_prependEach {prepend : α → StateM σ Nat} {wire : α → List UInt8}
    (writes : ∀ item, Writes Holds (prepend item) (wire item)) (items : List α) :
    Writes Holds (prependEach prepend items) (items.flatMap wire) := by
  induction items with
  | nil => exact writes_nothing
  | cons item rest ih =>
    unfold prependEach
    rw [List.foldrM_cons, List.flatMap_cons]
    exact ih.andThen (writes item)

/-- A relation between sinks and the bytes they have taken that both ways of prepending keep. -/
structure Faithful [Sink σ] (Holds : σ → List UInt8 → Prop) : Prop where
  prependByte : ∀ byte, Writes Holds (Sink.prependByte byte) [byte]
  prependBytes : ∀ front, Writes Holds (Sink.prependBytes front) front
  size_eq : ∀ {sink bytes}, Holds sink bytes → Sink.size sink = bytes.length

theorem faithful_list : Faithful fun (sink : List UInt8) bytes => sink = bytes where
  prependByte byte bytes _ held := ⟨byte :: bytes, rfl, congrArg (byte :: ·) held⟩
  prependBytes front bytes _ held := ⟨front ++ bytes, rfl, congrArg (front ++ ·) held⟩
  size_eq held := congrArg List.length held

theorem faithful_byteCount :
    Faithful fun (total : ByteCount) bytes => total.count = bytes.length where
  prependByte byte total bytes held := ⟨⟨total.count + 1⟩, rfl, by simp [held]⟩
  prependBytes front total bytes held :=
    ⟨⟨total.count + front.length⟩, rfl, by simp [held, Nat.add_comm]⟩
  size_eq held := held

theorem faithful_buffer : Faithful fun (buffer : Buffer) bytes => buffer.bytes = bytes where
  prependByte byte buffer bytes held := ⟨buffer.prepend [byte], rfl, by simp [held]⟩
  prependBytes front buffer bytes held := ⟨buffer.prepend front, rfl, by simp [held]⟩
  size_eq {buffer _} held := by
    rw [← held, Buffer.length_bytes]
    rfl

end Sink

open Sink (Faithful Writes)

theorem written_eq {step : StateM (List UInt8) Nat} {front : List UInt8}
    (writes : Writes (· = ·) step front) : written step = front := by
  obtain ⟨next, run, held⟩ := writes [] [] rfl
  unfold written
  rw [run, held, List.append_nil]

end Delegations
