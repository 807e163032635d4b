import Delegations.Proofs.WireOrder

/-!
The written numbers as a code. Main statement: a written number is told from whatever follows it, no
other form of it is as short, and greater numbers are written as greater byte strings
(`ordered_prefix_code`).
-/
namespace Delegations

open Std
open Sink (faithful_buffer faithful_list)

theorem compare_eq_lt_iff_lt {left right : List UInt8} :
    compare left right = .lt ↔ left < right := by
  induction left generalizing right with
  | nil =>
    cases right with
    | nil => simp
    | cons b' rest' => simp [List.nil_lt_cons]
  | cons b rest ih =>
    cases right with
    | nil => simp
    | cons b' rest' =>
      rw [List.compare_cons_cons, Ordering.then_eq_lt, compare_eq_lt,
        LawfulEqOrd.compare_eq_iff_eq, ih, List.cons_lt_cons_iff]

namespace VarNumber

def wire (n : UInt64) : List UInt8 := written (prepend n)

variable {n m : UInt64} {bytes tail : List UInt8} {next : Cursor}

theorem wire_eq (n : UInt64) : wire n = shortest n := written_eq (writes_prepend faithful_list n)

theorem length_wire (n : UInt64) : (wire n).length = size n := by
  rw [wire_eq, length_shortest]

theorem run_prepend_buffer (n : UInt64) (buffer : Buffer) :
    ∃ next, (prepend n).run buffer = (size n, next) ∧ next.bytes = wire n ++ buffer.bytes := by
  rw [wire_eq, ← length_shortest]
  exact writes_prepend faithful_buffer n buffer buffer.bytes rfl

theorem read_wire (n : UInt64) (tail : List UInt8) :
    ∃ next, read (.ofBytes (wire n ++ tail)) = .ok n next ∧ next.unread = tail := by
  have form := form_shortest n
  rw [← wire_eq] at form
  exact ⟨_, read_of_reads form (Cursor.reads_after rfl), rfl⟩

theorem form_of_read (found : read (.ofBytes bytes) = .ok n next) (all : next.unread = []) :
    Form n.toNat bytes := by
  obtain ⟨front, form, unread, _⟩ := reads_of_read found
  rw [all, List.append_nil] at unread
  rwa [show bytes = front from unread]

theorem size_lt_of_other (found : read (.ofBytes bytes) = .ok n next) (all : next.unread = [])
    (other : bytes ≠ wire n) : size n < bytes.length := by
  obtain ⟨le, same⟩ := trims_of_form (form_of_read found all)
  rw [length_shortest] at le same
  refine Nat.lt_of_le_of_ne le ?_
  intro equal
  rw [wire_eq] at other
  exact other (same equal).symm

theorem lt_iff_wire_lt : n < m ↔ wire n < wire m := by
  rw [wire_eq, wire_eq, ← compare_eq_lt_iff_lt, (decides_shortest n m).compare_eq, compare_eq_lt]

theorem wire_prefix_iff : wire n <+: wire m ↔ n = m := by
  constructor
  · rintro ⟨tail, same⟩
    rw [wire_eq, wire_eq, ← List.append_nil (shortest m)] at same
    exact LawfulEqOrd.eq_of_compare ((decides_shortest n m).eq_of_append_eq same)
  · rintro rfl
    exact List.prefix_rfl

/-- A written number is read back from in front of anything, and no other bytes that are read as this
number are as few. The numbers are ordered as the bytes that they are written as, none of which
begin with those of another number. -/
theorem ordered_prefix_code (n m : UInt64) (tail : List UInt8) :
    (∃ next, read (.ofBytes (wire n ++ tail)) = .ok n next ∧ next.unread = tail) ∧
    (wire n).length = size n ∧
    (∀ buffer : Buffer,
      ∃ next, (prepend n).run buffer = (size n, next) ∧ next.bytes = wire n ++ buffer.bytes) ∧
    (∀ bytes next, read (.ofBytes bytes) = .ok n next → next.unread = [] → bytes ≠ wire n →
      size n < bytes.length) ∧
    (n < m ↔ wire n < wire m) ∧
    (wire n <+: wire m → n = m) := by
  refine ⟨read_wire n tail, length_wire n, run_prepend_buffer n, ?_, lt_iff_wire_lt, ?_⟩
  · intro bytes next
    exact size_lt_of_other
  · exact wire_prefix_iff.mp

theorem ordered_prefix_code_boundary : size 252 < [253, 0, 252].length ∧ wire 252 < wire 253 ∧
    ¬wire 253 <+: wire 64768 := by
  obtain ⟨_, _, _, others, order, _⟩ := ordered_prefix_code 252 253 []
  obtain ⟨_, _, _, _, _, starts⟩ := ordered_prefix_code 253 64768 []
  have wide : read (.ofBytes [253, 0, 252]) = .ok 252 (.after [253, 0, 252] [] 0) :=
    read_of_reads (.two [0, 252] rfl) (Cursor.reads_after rfl)
  refine ⟨others _ _ wide rfl (by decide), order.mp (by decide), mt starts (by decide)⟩

end VarNumber

end Delegations
