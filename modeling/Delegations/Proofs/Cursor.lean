import Delegations.Proofs.Framing

/-!
Calls on a cursor, of which any may fail. Main statement: whatever was called before, the cursor
stands behind just the bytes that it has moved over, and the bytes that follow decide what a call
returns and how far it moves (`calls_stay_within_bytes`).
-/
namespace Delegations

theorem VarNumber.Stops.parts {moved left : List UInt8} {fault : TlvError}
    (stops : Stops moved left fault) :
    moved = (moved ++ left).take 1 ∧ left = (moved ++ left).drop 1 := by
  cases stops with
  | atEnd => exact ⟨rfl, rfl⟩
  | short first body => exact ⟨rfl, rfl⟩

namespace Cursor

inductive Primitive where
  | peek | u8 | u16 | u32 | u64
  | take (count : Nat)

inductive Call where
  | primitive (read : Primitive)
  | varNumber
  | type

inductive Reply where
  | number (value : Nat)
  | bytes (taken : List UInt8)
deriving DecidableEq

variable {cursor next : Cursor}

theorem exists_reads_take {count : Nat} (fits : count ≤ cursor.size) : ∃ next,
    (cursor.unread.take count).length = count ∧ cursor.Reads (cursor.unread.take count) next := by
  rw [cursor.size_eq] at fits
  have parts := List.take_append_drop count cursor.unread
  exact ⟨_, List.length_take_of_le fits, reads_after parts.symm⟩

theorem position_of_reads {count : Nat} (fits : count ≤ cursor.size)
    (reads : cursor.Reads (cursor.unread.take count) next) :
    next.position = cursor.position + count := by
  rw [cursor.size_eq] at fits
  rw [reads.2, List.length_take_of_le fits]

namespace Primitive

def perform : Primitive → EStateM EndOfInput Cursor Reply
  | peek => (fun byte => .number byte.toNat) <$> Cursor.peek
  | u8 => (fun n => .number n.toNat) <$> Cursor.u8
  | u16 => (fun n => .number n.toNat) <$> Cursor.u16
  | u32 => (fun n => .number n.toNat) <$> Cursor.u32
  | u64 => (fun n => .number n.toNat) <$> Cursor.u64
  | take count => Reply.bytes <$> Cursor.take count

def width : Primitive → Nat
  | peek | u8 => 1
  | u16 => 2
  | u32 => 4
  | u64 => 8
  | take count => count

/-- The number of bytes that the read moves over if there are as many as it needs. -/
def advance : Primitive → Nat
  | peek => 0
  | read => read.width

def reply (needed : List UInt8) : Primitive → Reply
  | take _ => .bytes needed
  | _ => .number (Nat.ofDigits 256 (needed.reverse.map UInt8.toNat))

theorem advance_le_width (read : Primitive) : read.advance ≤ read.width := by
  cases read with
  | peek => exact Nat.zero_le _
  | u8 | u16 | u32 | u64 | take count => exact Nat.le_refl _

theorem exists_reads_number {α : Type} {width : Nat} {narrow : Nat → α} {value : α → Nat}
    (holds : ∀ n < 256 ^ width, value (narrow n) = n) (fits : width ≤ cursor.size) :
    ∃ next, ((fun n => Reply.number (value n)) <$> narrow <$> Cursor.number width) cursor =
        .ok (.number (Nat.ofDigits 256 ((cursor.unread.take width).reverse.map UInt8.toNat))) next ∧
      cursor.Reads (cursor.unread.take width) next := by
  obtain ⟨next, length, reads⟩ := exists_reads_take fits
  have below := BigEndian.decode_lt (cursor.unread.take width)
  rw [length] at below
  have numbered := number_eq_ok_iff.mpr ⟨_, length, rfl, reads⟩
  refine ⟨next, map_eq_ok.mpr ⟨_, map_eq_ok.mpr ⟨_, numbered, rfl⟩, ?_⟩, reads⟩
  rw [holds _ below, BigEndian.decode_eq_ofDigits]

theorem exists_reads (read : Primitive) (fits : read.width ≤ cursor.size) :
    ∃ next, read.perform cursor = .ok (read.reply (cursor.unread.take read.width)) next ∧
      cursor.Reads (cursor.unread.take read.advance) next := by
  cases read with
  | peek =>
    rw [cursor.size_eq] at fits
    obtain ⟨byte, rest, starts⟩ := List.exists_cons_of_length_pos fits
    refine ⟨cursor, map_eq_ok.mpr ⟨byte, ?_, ?_⟩, reads_nil.mpr rfl⟩
    · unfold Cursor.peek
      rw [starts]
    · simp [width, reply, starts]
  | u8 => exact exists_reads_number (fun _ below => UInt8.toNat_ofNat_of_lt' below) fits
  | u16 => exact exists_reads_number (fun _ below => UInt16.toNat_ofNat_of_lt' below) fits
  | u32 => exact exists_reads_number (fun _ below => UInt32.toNat_ofNat_of_lt' below) fits
  | u64 => exact exists_reads_number (fun _ below => UInt64.toNat_ofNat_of_lt' below) fits
  | take count =>
    obtain ⟨next, length, reads⟩ := exists_reads_take fits
    have taken := take_eq_ok_iff.mpr ⟨length, reads⟩
    exact ⟨next, map_eq_ok.mpr ⟨_, taken, rfl⟩, reads⟩

theorem perform_of_short (read : Primitive) (short : cursor.size < read.width) :
    read.perform cursor = .error ⟨read.width, cursor.size⟩ cursor := by
  have number (width : Nat) (short : cursor.size < width) :
      Cursor.number width cursor = .error ⟨width, cursor.size⟩ cursor :=
    number_eq_error_iff.mpr ⟨short, rfl, rfl⟩
  cases read with
  | peek =>
    have empty : cursor.unread = [] := by
      rwa [cursor.size_eq, width, Nat.lt_one_iff, List.length_eq_zero_iff] at short
    apply map_eq_error.mpr
    unfold Cursor.peek
    rw [cursor.size_eq, empty]
    rfl
  | u8 | u16 | u32 | u64 => exact map_eq_error.mpr (map_eq_error.mpr (number _ short))
  | take count => exact map_eq_error.mpr (take_eq_error_iff.mpr ⟨short, rfl, rfl⟩)

end Primitive

def Passes (before : Cursor) (n : Nat) (after : Cursor) : Prop :=
  ∃ form, VarNumber.Form n form ∧ before.Reads form after

/-- The cursor moves over the first byte, unless there is none, and the bytes that follow are fewer
than that one announces. -/
def Stops (before : Cursor) (fault : TlvError) (after : Cursor) : Prop :=
  after.position = before.position + min 1 before.size ∧
    VarNumber.Stops (before.unread.take 1) (before.unread.drop 1) fault

theorem stops_of_read {fault : TlvError} (read : VarNumber.read cursor = .error fault next) :
    ∃ moved, cursor.Reads moved next ∧ cursor.Stops fault next := by
  obtain ⟨moved, reads, stops⟩ := VarNumber.read_eq_error_iff.mp read
  obtain ⟨front, back⟩ := stops.parts
  rw [← reads.1] at front back
  refine ⟨moved, reads, ?_, ?_⟩
  · rw [reads.2, front, List.length_take, cursor.size_eq]
  · rwa [← front, ← back]

namespace Call

def perform : Call → EStateM TlvError Cursor Reply
  | primitive read => EStateM.adaptExcept TlvError.endOfInput read.perform
  | varNumber => (fun n => .number n.toNat) <$> VarNumber.read
  | type => (fun n => .number n.toNat) <$> VarNumber.readType

/-- What the call comes to at the first cursor, and how far behind it the second one is left. -/
def Answers (before : Cursor) (outcome : Except TlvError Reply) (after : Cursor) : Call → Prop
  | primitive read =>
    if read.width ≤ before.size then
      outcome = .ok (read.reply (before.unread.take read.width)) ∧
        after.position = before.position + read.advance
    else outcome = .error (.endOfInput ⟨read.width, before.size⟩) ∧ after = before
  | varNumber =>
    (∃ n, outcome = .ok (.number n) ∧ before.Passes n after) ∨
      ∃ fault, outcome = .error fault ∧ before.Stops fault after
  | type =>
    (∃ n, outcome = .ok (.number n) ∧ 0 < n ∧ n ≤ 0xFFFFFFFF ∧ before.Passes n after) ∨
      (∃ n, outcome = .error (.typeOutOfRange n) ∧ (n = 0 ∨ 0xFFFFFFFF < n) ∧
        before.Passes n.toNat after) ∨
      ∃ fault, outcome = .error fault ∧ before.Stops fault after

theorem exists_answers (call : Call) (cursor : Cursor) : ∃ outcome moved next,
    attempt call.perform cursor = (outcome, next) ∧ cursor.Reads moved next ∧
      call.Answers cursor outcome next := by
  cases call with
  | primitive read =>
    by_cases fits : read.width ≤ cursor.size
    · obtain ⟨next, performed, reads⟩ := read.exists_reads fits
      refine ⟨_, _, next, attempt_eq_ok_iff.mpr (adaptExcept_eq_ok.mpr performed), reads, ?_⟩
      rw [Answers, if_pos fits]
      exact ⟨rfl, position_of_reads (Nat.le_trans read.advance_le_width fits) reads⟩
    · have performed := read.perform_of_short (Nat.lt_of_not_le fits)
      refine ⟨_, [], cursor, attempt_eq_error_iff.mpr (adaptExcept_eq_error.mpr ⟨_, performed, rfl⟩),
        reads_nil.mpr rfl, ?_⟩
      rw [Answers, if_neg fits]
      exact ⟨rfl, rfl⟩
  | varNumber =>
    cases read : VarNumber.read cursor with
    | ok n next =>
      obtain ⟨form, isForm, reads⟩ := VarNumber.read_eq_ok_iff.mp read
      exact ⟨_, form, next, attempt_eq_ok_iff.mpr (map_eq_ok.mpr ⟨n, read, rfl⟩), reads,
        .inl ⟨n.toNat, rfl, form, isForm, reads⟩⟩
    | error fault next =>
      obtain ⟨moved, reads, stops⟩ := stops_of_read read
      exact ⟨_, moved, next, attempt_eq_error_iff.mpr (map_eq_error.mpr read), reads,
        .inr ⟨fault, rfl, stops⟩⟩
  | type =>
    cases read : VarNumber.readType cursor with
    | ok n next =>
      obtain ⟨nonzero, form, isForm, reads⟩ := VarNumber.readType_eq_ok_iff.mp read
      have positive : 0 < n.toNat := UInt32.lt_iff_toNat_lt.mp (UInt32.pos_iff_ne_zero.mpr nonzero)
      exact ⟨_, form, next, attempt_eq_ok_iff.mpr (map_eq_ok.mpr ⟨n, read, rfl⟩), reads,
        .inl ⟨n.toNat, rfl, positive, Nat.le_of_lt_succ n.toNat_lt, form, isForm, reads⟩⟩
    | error fault next =>
      have performed : attempt type.perform cursor = (.error fault, next) :=
        attempt_eq_error_iff.mpr (map_eq_error.mpr read)
      rcases VarNumber.readType_eq_error_iff.mp read with read | ⟨n, form, isForm, reads, range, rfl⟩
      · obtain ⟨moved, reads, stops⟩ := stops_of_read read
        exact ⟨_, moved, next, performed, reads, .inr (.inr ⟨fault, rfl, stops⟩)⟩
      · exact ⟨_, form, next, performed, reads, .inr (.inl ⟨n, rfl, range, form, isForm, reads⟩)⟩

/-- Makes the call, and returns with its outcome the bytes that the cursor has moved over. -/
def make (call : Call) : StateM Cursor (Except TlvError Reply × List UInt8) := fun cursor =>
  let (outcome, next) := attempt call.perform cursor
  ((outcome, cursor.unread.take (next.position - cursor.position)), next)

theorem make_eq (call : Call) (cursor : Cursor) : ∃ outcome moved next,
    call.make cursor = ((outcome, moved), next) ∧ cursor.Reads moved next ∧
      call.Answers cursor outcome next := by
  obtain ⟨outcome, moved, next, performed, reads, answers⟩ := call.exists_answers cursor
  refine ⟨outcome, moved, next, ?_, reads, answers⟩
  unfold make
  rw [performed]
  simp only [reads.take_unread]

end Call

def makeAll (calls : List Call) : StateM Cursor (List (Except TlvError Reply × List UInt8)) :=
  calls.mapM Call.make

theorem reads_makeAll (calls : List Call) (cursor : Cursor) : ∃ replies last,
    makeAll calls cursor = (replies, last) ∧ cursor.Reads (replies.flatMap Prod.snd) last := by
  induction calls generalizing cursor with
  | nil => exact ⟨[], cursor, rfl, reads_nil.mpr rfl⟩
  | cons call rest ih =>
    obtain ⟨outcome, moved, next, made, reads, _⟩ := call.make_eq cursor
    obtain ⟨replies, last, madeRest, readsRest⟩ := ih next
    refine ⟨(outcome, moved) :: replies, last, ?_, reads_append.mpr ⟨next, reads, readsRest⟩⟩
    unfold makeAll at *
    rw [mapM_state_cons, made, madeRest]

/-- The cursor is in these bytes, and those that it has moved over are the ones in front of it. -/
structure Within (bytes moved : List UInt8) (cursor : Cursor) : Prop where
  position_add_size : cursor.position + cursor.size = bytes.length
  moved_eq : moved = bytes.take cursor.position
  unread_eq : cursor.unread = bytes.drop cursor.position

theorem within_of_reads {bytes moved : List UInt8} (reads : (ofBytes bytes).Reads moved cursor) :
    cursor.Within bytes moved := by
  obtain ⟨unread, position⟩ := reads
  replace unread : bytes = moved ++ cursor.unread := unread
  replace position : cursor.position = moved.length := by rw [position, ofBytes, Nat.zero_add]
  refine ⟨?_, ?_, ?_⟩
  · rw [position, cursor.size_eq, unread, List.length_append]
  · rw [position, unread, List.take_left]
  · rw [position, unread, List.drop_left]

/-- After any calls, failed ones among them, the cursor stands behind just the bytes that they have
moved over. One more call does not move it back, and the bytes that follow decide whether that call
succeeds, what it returns and how far it moves. -/
theorem calls_stay_within_bytes (bytes : List UInt8) (calls : List Call) (call : Call) :
    ∃ replies cursor outcome moved next,
      makeAll calls (ofBytes bytes) = (replies, cursor) ∧
      call.make cursor = ((outcome, moved), next) ∧
      cursor.Within bytes (replies.flatMap Prod.snd) ∧
      next.Within bytes (replies.flatMap Prod.snd ++ moved) ∧
      cursor.position ≤ next.position ∧ call.Answers cursor outcome next := by
  obtain ⟨replies, cursor, madeAll, readsAll⟩ := reads_makeAll calls (ofBytes bytes)
  obtain ⟨outcome, moved, next, made, reads, answers⟩ := call.make_eq cursor
  have readsBoth := reads_append.mpr ⟨cursor, readsAll, reads⟩
  have forward : cursor.position ≤ next.position := by
    rw [reads.2]
    exact Nat.le_add_right _ _
  exact ⟨replies, cursor, outcome, moved, next, madeAll, made, within_of_reads readsAll,
    within_of_reads readsBoth, forward, answers⟩

-- The number lacks its last byte, and those that it has are read as other numbers afterwards.
example : makeAll [.varNumber, .primitive .u16, .primitive .peek, .type] (ofBytes [254, 0, 1, 0]) =
    ([(.error (.endOfInput ⟨4, 3⟩), [254]), (.ok (.number 1), [0, 1]), (.ok (.number 0), []),
      (.error (.typeOutOfRange 0), [0])], after [254, 0, 1, 0] [] 0) := by
  rfl

end Cursor

end Delegations
