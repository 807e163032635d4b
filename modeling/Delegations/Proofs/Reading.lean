import Mathlib
import Delegations.Cursor

/-!
What a successful read takes from the front of a cursor. Main statement: a read of some bytes leads
from one cursor to the next exactly if the first has these bytes in front of what the second has
left (`take_eq_ok_iff`).
-/
namespace Delegations

section
variable {ε σ α β : Type}

/-- What the step returns and the state that it leaves, which a failing step has too. -/
def attempt (step : EStateM ε σ α) (state : σ) : Except ε α × σ :=
  match step.run state with
  | .ok a next => (.ok a, next)
  | .error fault next => (.error fault, next)

theorem attempt_eq_ok_iff {step : EStateM ε σ α} {s t : σ} {a : α} :
    attempt step s = (.ok a, t) ↔ step.run s = .ok a t := by
  unfold attempt
  cases step.run s <;> simp

theorem attempt_eq_error_iff {step : EStateM ε σ α} {s t : σ} {fault : ε} :
    attempt step s = (.error fault, t) ↔ step.run s = .error fault t := by
  unfold attempt
  cases step.run s <;> simp

theorem mapM_state_cons (step : α → StateM σ β) (item : α) (rest : List α) (state : σ) :
    (item :: rest).mapM step state =
      ((step item state).1 :: (rest.mapM step (step item state).2).1,
        (rest.mapM step (step item state).2).2) := by
  rw [List.mapM_cons]
  rfl

theorem except_bind_eq_ok {first : Except ε α} {next : α → Except ε β} {b : β} :
    (first >>= next) = .ok b ↔ ∃ a, first = .ok a ∧ next a = .ok b := by
  cases first <;> simp [bind, Except.bind]

theorem mapError_eq_ok_iff {δ : Type} {f : ε → δ} {outcome : Except ε α} {a : α} :
    outcome.mapError f = .ok a ↔ outcome = .ok a := by
  cases outcome <;> simp [Except.mapError]

theorem mapError_eq_error_iff {δ : Type} {f : ε → δ} {outcome : Except ε α} {fault : δ} :
    outcome.mapError f = .error fault ↔ ∃ cause, outcome = .error cause ∧ f cause = fault := by
  cases outcome <;> simp [Except.mapError]

theorem mapM_eq_ok_iff {f : α → Except ε β} {items : List α} {results : List β} :
    items.mapM f = .ok results ↔
      List.Forall₂ (fun item result => f item = .ok result) items results := by
  induction items generalizing results with
  | nil => simp [pure, Except.pure, eq_comm]
  | cons item rest ih =>
    simp only [List.mapM_cons, except_bind_eq_ok, ih, List.forall₂_cons_left_iff]
    refine exists_congr fun result => ?_
    refine ⟨?_, ?_⟩
    · intro h
      rcases h with ⟨first, later, others, h⟩
      exact ⟨later, first, others, (Except.ok.inj h).symm⟩
    · intro h
      rcases h with ⟨later, first, others, rfl⟩
      exact ⟨first, later, others, rfl⟩

theorem exists_mapM_eq_ok_iff {f : α → Except ε β} {items : List α} :
    (∃ results, items.mapM f = .ok results) ↔ ∀ item ∈ items, ∃ result, f item = .ok result := by
  simp only [mapM_eq_ok_iff]
  induction items with
  | nil => simp
  | cons item rest ih =>
    simp only [List.forall₂_cons_left_iff, List.forall_mem_cons, ← ih]
    constructor
    · rintro ⟨_, result, results, first, later, rfl⟩
      exact ⟨⟨result, first⟩, results, later⟩
    · rintro ⟨⟨result, first⟩, results, later⟩
      exact ⟨_, result, results, first, later, rfl⟩

theorem mapM_eq_error_iff {f : α → Except ε β} {items : List α} {fault : ε} :
    items.mapM f = .error fault ↔ ∃ before item after, items = before ++ item :: after ∧
      (∀ earlier ∈ before, ∃ result, f earlier = .ok result) ∧ f item = .error fault := by
  induction items with
  | nil => simp [pure, Except.pure]
  | cons first rest ih =>
    rw [List.mapM_cons]
    cases outcome : f first with
    | error stop =>
      constructor
      · intro h
        cases h
        exact ⟨[], first, rest, rfl, nofun, outcome⟩
      · rintro ⟨before, item, after, split, sound, failed⟩
        cases before with
        | nil =>
          cases split
          cases outcome.symm.trans failed
          rfl
        | cons _ before =>
          cases split
          obtain ⟨_, succeeded⟩ := sound first (by simp)
          cases outcome.symm.trans succeeded
    | ok result =>
      have later : (do return result :: (← rest.mapM f) : Except ε (List β)) = .error fault ↔
          rest.mapM f = .error fault := by
        cases rest.mapM f <;> simp [bind, Except.bind, pure, Except.pure]
      refine later.trans (ih.trans ?_)
      constructor
      · rintro ⟨before, item, after, rfl, sound, failed⟩
        refine ⟨first :: before, item, after, rfl, ?_, failed⟩
        exact List.forall_mem_cons.mpr ⟨⟨result, outcome⟩, sound⟩
      · rintro ⟨before, item, after, split, sound, failed⟩
        cases before with
        | nil =>
          cases split
          cases outcome.symm.trans failed
        | cons _ before =>
          cases split
          exact ⟨before, item, after, rfl, (List.forall_mem_cons.mp sound).2, failed⟩

end

namespace Cursor

/-- The bytes stand between the two cursors. -/
def Reads (cursor : Cursor) (bytes : List UInt8) (next : Cursor) : Prop :=
  cursor.unread = bytes ++ next.unread ∧ next.position = cursor.position + bytes.length

variable {cursor next middle : Cursor} {bytes front back : List UInt8}

theorem eq_of_unread_position {left right : Cursor} (unread : left.unread = right.unread)
    (position : left.position = right.position) : left = right := by
  obtain ⟨_, _, _, sizeLeft⟩ := left
  obtain ⟨_, _, _, sizeRight⟩ := right
  simp only at unread position
  subst unread position sizeLeft sizeRight
  rfl

def after (bytes rest : List UInt8) (position : Nat) : Cursor :=
  { ofBytes rest with position := position + bytes.length }

theorem reads_after {rest : List UInt8} (h : cursor.unread = bytes ++ rest) :
    Reads cursor bytes (after bytes rest cursor.position) := ⟨h, rfl⟩

theorem reads_nil : Reads cursor [] next ↔ cursor = next := by
  constructor
  · rintro ⟨unread, position⟩
    exact eq_of_unread_position unread position.symm
  · rintro rfl
    exact ⟨rfl, rfl⟩

theorem reads_append :
    Reads cursor (front ++ back) next ↔
      ∃ middle, Reads cursor front middle ∧ Reads middle back next := by
  constructor
  · rintro ⟨unread, position⟩
    rw [List.append_assoc] at unread
    refine ⟨after front (back ++ next.unread) cursor.position, reads_after unread, rfl, ?_⟩
    rw [position, List.length_append, ← Nat.add_assoc]
    rfl
  · rintro ⟨middle, ⟨unread, position⟩, unread', position'⟩
    refine ⟨?_, ?_⟩
    · rw [unread, unread', List.append_assoc]
    · rw [position', position, List.length_append, Nat.add_assoc]

theorem Reads.size (reads : Reads cursor bytes next) :
    cursor.size = bytes.length + next.size := by
  rw [cursor.size_eq, next.size_eq, reads.1, List.length_append]

theorem Reads.take_unread (reads : Reads cursor bytes next) :
    cursor.unread.take (next.position - cursor.position) = bytes := by
  rw [reads.2, Nat.add_sub_cancel_left, reads.1, List.take_left]

theorem take_eq_ok_iff {count : Nat} :
    take count cursor = .ok bytes next ↔ bytes.length = count ∧ Reads cursor bytes next := by
  unfold take
  constructor
  · intro h
    split at h
    · rename_i fits
      cases h
      rw [cursor.size_eq] at fits
      have width : (cursor.unread.take count).length = count := List.length_take_of_le fits
      refine ⟨width, ?_, ?_⟩
      · exact (List.take_append_drop count cursor.unread).symm
      · rw [width]
    · cases h
  · rintro ⟨width, reads⟩
    have fits : count ≤ cursor.size := by
      rw [reads.size]
      omega
    rw [if_pos fits]
    obtain ⟨unread, position⟩ := reads
    subst width
    congr 1
    · rw [unread, List.take_left]
    · apply eq_of_unread_position
      · simp only [unread, List.drop_left]
      · exact position.symm

theorem number_eq_ok_iff {width n : Nat} : number width cursor = .ok n next ↔
    ∃ bytes, bytes.length = width ∧ BigEndian.decode bytes = n ∧ Reads cursor bytes next := by
  unfold number
  rw [map_eq_ok]
  constructor
  · rintro ⟨bytes, taken, value⟩
    obtain ⟨width, reads⟩ := take_eq_ok_iff.mp taken
    exact ⟨bytes, width, value, reads⟩
  · rintro ⟨bytes, width, value, reads⟩
    exact ⟨bytes, take_eq_ok_iff.mpr ⟨width, reads⟩, value⟩

theorem u8_eq_ok_iff {byte : UInt8} :
    u8 cursor = .ok byte next ↔ Reads cursor [byte] next := by
  unfold u8
  rw [map_eq_ok]
  constructor
  · rintro ⟨n, read, value⟩
    obtain ⟨bytes, width, digits, reads⟩ := number_eq_ok_iff.mp read
    obtain ⟨only, rfl⟩ := List.length_eq_one_iff.mp width
    subst value digits
    simpa [BigEndian.decode] using reads
  · intro reads
    refine ⟨byte.toNat, number_eq_ok_iff.mpr ⟨[byte], rfl, ?_, reads⟩, ?_⟩
    · simp [BigEndian.decode]
    · simp

end Cursor

end Delegations
