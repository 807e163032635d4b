import Delegations.Proofs.Element

/-!
What is wrong with bytes that no element can be read from. Main statements: reading an element fails
exactly where there is such a fault (`readNext_eq_error_iff`), and the children of an element cannot
be read exactly if well-formed ones are followed by a fault (`children_eq_error_iff`).
-/
namespace Delegations

section
variable {ε ε' σ α β : Type} {s t : σ}

theorem bind_eq_error {step : EStateM ε σ α} {next : α → EStateM ε σ β} {fault : ε} :
    (step >>= next) s = .error fault t ↔
      step s = .error fault t ∨ ∃ a u, step s = .ok a u ∧ next a u = .error fault t := by
  simp only [bind, EStateM.bind]
  cases step s <;> simp

theorem map_eq_error {step : EStateM ε σ α} {f : α → β} {fault : ε} :
    (f <$> step) s = .error fault t ↔ step s = .error fault t := by
  simp only [Functor.map, EStateM.map]
  cases step s <;> simp

theorem adaptExcept_eq_error {step : EStateM ε σ α} {f : ε → ε'} {fault : ε'} :
    EStateM.adaptExcept f step s = .error fault t ↔
      ∃ cause, step s = .error cause t ∧ f cause = fault := by
  simp only [EStateM.adaptExcept]
  cases step s <;> simp [and_comm]

end

namespace Cursor

variable {cursor next : Cursor} {fault : EndOfInput}

theorem take_eq_error_iff {count : Nat} : take count cursor = .error fault next ↔
    cursor.size < count ∧ fault = ⟨count, cursor.size⟩ ∧ cursor = next := by
  unfold take
  split <;> simp [eq_comm] <;> omega

theorem number_eq_error_iff {width : Nat} : number width cursor = .error fault next ↔
    cursor.size < width ∧ fault = ⟨width, cursor.size⟩ ∧ cursor = next := by
  unfold number
  rw [map_eq_error, take_eq_error_iff]

theorem u8_eq_error_iff : u8 cursor = .error fault next ↔
    cursor.unread = [] ∧ fault = ⟨1, 0⟩ ∧ cursor = next := by
  unfold u8
  rw [map_eq_error, number_eq_error_iff, cursor.size_eq, Nat.lt_one_iff, List.length_eq_zero_iff]
  refine and_congr_right fun empty => ?_
  rw [empty]
  rfl

end Cursor

namespace VarNumber

/-- A read of a number takes the first bytes and then cannot go on with the others, because they are
fewer than it needs: none where it needs one, or not as many as the first one announces. -/
inductive Stops : List UInt8 → List UInt8 → TlvError → Prop
  | atEnd : Stops [] [] (.endOfInput ⟨1, 0⟩)
  | short (first : UInt8) (body : List UInt8) : 253 ≤ first.toNat →
      body.length < 1 <<< (first.toNat - 252) →
      Stops [first] body (.endOfInput ⟨1 <<< (first.toNat - 252), body.length⟩)

variable {cursor next : Cursor} {fault : TlvError}

theorem stops_of_read (h : read cursor = .error fault next) :
    ∃ moved, cursor.Reads moved next ∧ Stops moved next.unread fault := by
  unfold read at h
  rcases bind_eq_error.mp h with h | ⟨first, rest, readFirst, h⟩
  · obtain ⟨_, empty, rfl⟩ := adaptExcept_eq_error.mp h
    obtain ⟨none, rfl, rfl⟩ := Cursor.u8_eq_error_iff.mp empty
    refine ⟨[], Cursor.reads_nil.mpr rfl, ?_⟩
    rw [none]
    exact .atEnd
  · have readsFirst := Cursor.u8_eq_ok_iff.mp (adaptExcept_eq_ok.mp readFirst)
    split at h
    · cases h
    · rename_i announces
      simp only [UInt8.lt_iff_toNat_lt, UInt8.reduceToNat, not_lt] at announces
      rcases bind_eq_error.mp h with h | ⟨_, _, _, h⟩
      · obtain ⟨_, cut, rfl⟩ := adaptExcept_eq_error.mp h
        obtain ⟨short, rfl, rfl⟩ := Cursor.number_eq_error_iff.mp cut
        refine ⟨[first], readsFirst, ?_⟩
        rw [rest.size_eq] at short ⊢
        exact .short first rest.unread announces short
      · cases h

theorem read_of_stops {moved : List UInt8} (reads : cursor.Reads moved next)
    (stops : Stops moved next.unread fault) : read cursor = .error fault next := by
  unfold read
  generalize left : next.unread = body at stops
  cases stops with
  | atEnd =>
    obtain rfl := Cursor.reads_nil.mp reads
    apply bind_eq_error.mpr
    left
    exact adaptExcept_eq_error.mpr ⟨_, Cursor.u8_eq_error_iff.mpr ⟨left, rfl, rfl⟩, rfl⟩
  | short first _ announces short =>
    have announces' : ¬first < 253 := by
      simp only [UInt8.lt_iff_toNat_lt, UInt8.reduceToNat]
      omega
    apply bind_eq_error.mpr
    right
    refine ⟨first, next, adaptExcept_eq_ok.mpr (Cursor.u8_eq_ok_iff.mpr reads), ?_⟩
    rw [if_neg announces']
    apply bind_eq_error.mpr
    left
    rw [← left, ← next.size_eq] at short ⊢
    exact adaptExcept_eq_error.mpr
      ⟨_, Cursor.number_eq_error_iff.mpr ⟨short, rfl, rfl⟩, rfl⟩

theorem read_eq_error_iff : read cursor = .error fault next ↔
    ∃ moved, cursor.Reads moved next ∧ Stops moved next.unread fault := by
  refine ⟨stops_of_read, ?_⟩
  intro h
  rcases h with ⟨moved, reads, stops⟩
  exact read_of_stops reads stops

theorem readType_eq_error_iff : readType cursor = .error fault next ↔
    read cursor = .error fault next ∨ ∃ n bytes, Form n.toNat bytes ∧ cursor.Reads bytes next ∧
      (n = 0 ∨ 0xFFFFFFFF < n) ∧ fault = .typeOutOfRange n := by
  unfold readType
  rw [bind_eq_error]
  apply or_congr_right
  simp only [read_eq_ok_iff]
  refine ⟨?_, ?_⟩
  · intro h
    rcases h with ⟨n, rest, ⟨bytes, form, reads⟩, h⟩
    split at h
    · rename_i outOfRange
      cases h
      simp only [Bool.or_eq_true, decide_eq_true_eq] at outOfRange
      exact ⟨n, bytes, form, reads, outOfRange, rfl⟩
    · cases h
  · intro h
    rcases h with ⟨n, bytes, form, reads, outOfRange, rfl⟩
    refine ⟨n, next, ⟨bytes, form, reads⟩, ?_⟩
    rw [if_pos (by simpa using outOfRange)]
    rfl

end VarNumber

namespace Element

/-- No element can be read from the front of the bytes, for the reason that comes with them. -/
inductive Fault : List UInt8 → TlvError → Prop
  | type {moved left : List UInt8} {fault : TlvError} :
      VarNumber.Stops moved left fault → Fault (moved ++ left) fault
  | typeOutOfRange {n : UInt64} {typeBytes : List UInt8} (rest : List UInt8) :
      VarNumber.Form n.toNat typeBytes → n = 0 ∨ 0xFFFFFFFF < n →
      Fault (typeBytes ++ rest) (.typeOutOfRange n)
  | length {type : UInt32} {typeBytes moved left : List UInt8} {fault : TlvError} :
      type ≠ 0 → VarNumber.Form type.toNat typeBytes → VarNumber.Stops moved left fault →
      Fault (typeBytes ++ (moved ++ left)) fault
  | lengthExceedsInput {type : UInt32} {length : UInt64} {typeBytes lengthBytes : List UInt8}
      (rest : List UInt8) : type ≠ 0 → VarNumber.Form type.toNat typeBytes →
      VarNumber.Form length.toNat lengthBytes → rest.length < length.toNat →
      Fault (typeBytes ++ (lengthBytes ++ rest)) (.lengthExceedsInput length rest.length)

variable {cursor next : Cursor} {element : Element} {fault : TlvError}

theorem readNext_eq_error_iff_steps : readNext cursor = .error fault next ↔
    VarNumber.readType cursor = .error fault next ∨
      ∃ type typed, VarNumber.readType cursor = .ok type typed ∧
        (VarNumber.read typed = .error fault next ∨
          ∃ length, VarNumber.read typed = .ok length next ∧ next.size < length.toNat ∧
            fault = .lengthExceedsInput length next.size) := by
  unfold readNext
  refine ⟨?_, ?_⟩
  · intro h
    rcases bind_eq_error.mp h with h | ⟨_, _, started, h⟩
    · cases h
    cases started
    rcases bind_eq_error.mp h with h | ⟨type, typed, readType, h⟩
    · exact .inl h
    refine .inr ⟨type, typed, readType, ?_⟩
    rcases bind_eq_error.mp h with h | ⟨length, sized, readLength, h⟩
    · exact .inl h
    rcases bind_eq_error.mp h with h | ⟨_, _, here, h⟩
    · cases h
    cases here
    split at h
    · rename_i short
      cases h
      exact .inr ⟨length, readLength, short, rfl⟩
    · rename_i enough
      rcases bind_eq_error.mp h with h | ⟨_, _, _, h⟩
      · obtain ⟨_, cut, _⟩ := adaptExcept_eq_error.mp h
        exact absurd (Cursor.take_eq_error_iff.mp cut).1 enough
      · cases h
  · intro h
    apply bind_eq_error.mpr
    refine .inr ⟨cursor, cursor, rfl, bind_eq_error.mpr ?_⟩
    rcases h with h | ⟨type, typed, readType, h⟩
    · exact .inl h
    refine .inr ⟨type, typed, readType, bind_eq_error.mpr ?_⟩
    rcases h with h | ⟨length, readLength, short, rfl⟩
    · exact .inl h
    refine .inr ⟨length, next, readLength, bind_eq_error.mpr ?_⟩
    refine .inr ⟨next, next, rfl, ?_⟩
    rw [if_pos short]
    rfl

theorem fault_of_readNext (h : readNext cursor = .error fault next) :
    Fault cursor.unread fault := by
  rcases readNext_eq_error_iff_steps.mp h with h | ⟨type, typed, readType, h⟩
  · rcases VarNumber.readType_eq_error_iff.mp h with h | ⟨n, bytes, form, reads, outOfRange, rfl⟩
    · obtain ⟨moved, reads, stops⟩ := VarNumber.read_eq_error_iff.mp h
      rw [reads.1]
      exact .type stops
    · rw [reads.1]
      exact .typeOutOfRange _ form outOfRange
  · obtain ⟨nonzero, typeBytes, formType, readsType⟩ := VarNumber.readType_eq_ok_iff.mp readType
    rw [readsType.1]
    rcases h with h | ⟨length, readLength, short, rfl⟩
    · obtain ⟨moved, reads, stops⟩ := VarNumber.read_eq_error_iff.mp h
      rw [reads.1]
      exact .length nonzero formType stops
    · obtain ⟨lengthBytes, formLength, readsLength⟩ := VarNumber.read_eq_ok_iff.mp readLength
      rw [next.size_eq] at short ⊢
      rw [readsLength.1]
      exact .lengthExceedsInput _ nonzero formType formLength short

theorem readNext_of_fault (h : Fault cursor.unread fault) :
    ∃ next, readNext cursor = .error fault next := by
  simp only [readNext_eq_error_iff_steps, VarNumber.readType_eq_error_iff,
    VarNumber.readType_eq_ok_iff, VarNumber.read_eq_error_iff, VarNumber.read_eq_ok_iff]
  generalize front : cursor.unread = bytes at h
  -- Each fault says how many bytes are taken before it shows, and so what cursor is left.
  cases h with
  | type stops => exact ⟨_, .inl (.inl ⟨_, Cursor.reads_after front, stops⟩)⟩
  | typeOutOfRange rest form outOfRange =>
    exact ⟨_, .inl (.inr ⟨_, _, form, Cursor.reads_after front, outOfRange, rfl⟩)⟩
  | length nonzero form stops =>
    have readsType := Cursor.reads_after front
    exact ⟨_, .inr ⟨_, _, ⟨nonzero, _, form, readsType⟩, .inl ⟨_, Cursor.reads_after rfl, stops⟩⟩⟩
  | lengthExceedsInput rest nonzero formType formLength short =>
    have readsType := Cursor.reads_after front
    exact ⟨_, .inr ⟨_, _, ⟨nonzero, _, formType, readsType⟩,
      .inr ⟨_, ⟨_, formLength, Cursor.reads_after rfl⟩, short, rfl⟩⟩⟩

theorem readNext_eq_error_iff :
    (∃ next, readNext cursor = .error fault next) ↔ Fault cursor.unread fault := by
  refine ⟨?_, readNext_of_fault⟩
  intro h
  rcases h with ⟨next, h⟩
  exact fault_of_readNext h

theorem read_eq_error_iff {input : List UInt8} : read input = .error fault ↔ Fault input fault := by
  have fails : (∃ next, readNext (Cursor.ofBytes input) = .error fault next) ↔ Fault input fault :=
    readNext_eq_error_iff
  rw [← fails]
  unfold read
  rw [EStateM.run]
  cases readNext (Cursor.ofBytes input) <;> simp

theorem readAll_of_error {done : List Element} (nonempty : cursor.size ≠ 0)
    (h : readNext cursor = .error fault next) : readAll done cursor = .error fault := by
  rw [readAll, if_neg nonempty]
  split
  · rename_i found rest h'
    cases h.symm.trans h'
  · rename_i found rest h'
    cases h.symm.trans h'
    rfl

/-- Well-formed elements are followed by bytes that no element can be read from. -/
def Breaks (bytes : List UInt8) (whole : List Element) (fault : TlvError) : Prop :=
  (∀ element ∈ whole, element.WellFormed) ∧
    ∃ rest, rest ≠ [] ∧ bytes = whole.flatMap wire ++ rest ∧ Fault rest fault

theorem readAll_eq_error_iff {done : List Element} : readAll done cursor = .error fault ↔
    ∃ whole, Breaks cursor.unread whole fault := by
  refine ⟨?_, ?_⟩
  · intro h
    fun_induction readAll done cursor with
    | case1 done cursor empty => cases h
    | case2 done cursor nonempty element next readElement ih =>
      obtain ⟨wellFormed, unread, _⟩ := readNext_eq_ok_iff.mp readElement
      obtain ⟨whole, allWellFormed, rest, occupied, bytes, faulty⟩ := ih h
      refine ⟨element :: whole, List.forall_mem_cons.mpr ⟨wellFormed, allWellFormed⟩, rest, occupied,
        ?_, faulty⟩
      rw [unread, bytes, List.flatMap_cons, List.append_assoc]
    | case3 done cursor nonempty fault' next readElement =>
      cases h
      refine ⟨[], List.forall_mem_nil _, cursor.unread, ?_, rfl, fault_of_readNext readElement⟩
      rwa [← List.length_pos_iff, ← cursor.size_eq, Nat.pos_iff_ne_zero]
  · intro h
    rcases h with ⟨whole, wellFormed, rest, occupied, bytes, faulty⟩
    induction whole generalizing done cursor with
    | nil =>
      obtain rfl : cursor.unread = rest := bytes
      obtain ⟨next, stopped⟩ := readNext_of_fault faulty
      refine readAll_of_error ?_ stopped
      rwa [cursor.size_eq, ← Nat.pos_iff_ne_zero, List.length_pos_iff]
    | cons first others ih =>
      obtain ⟨firstWellFormed, wellFormed⟩ := List.forall_mem_cons.mp wellFormed
      rw [List.flatMap_cons, List.append_assoc] at bytes
      have readFirst : readNext cursor = .ok first (Cursor.after first.wire _ _) :=
        readNext_eq_ok_iff.mpr ⟨firstWellFormed, Cursor.reads_after bytes⟩
      rw [readAll_of_ok readFirst]
      exact ih wellFormed rfl

theorem children_eq_error_iff :
    element.children = .error fault ↔ ∃ whole, Breaks element.value whole fault :=
  readAll_eq_error_iff

end Element

end Delegations
