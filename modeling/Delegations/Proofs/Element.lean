import Delegations.Element
import Delegations.Proofs.VarNumber

/-!
The forms of an element, and of sequences of them. Main statements: an element is decoded from
exactly the bytes that are a form of it (`decode_eq_ok_iff`), and a value splits into children
exactly if it is their bytes one after the other (`children_eq_ok_iff`).
-/
namespace Delegations

namespace Element

/-- The bytes are an element of that type and value, with both numbers in any of their forms. -/
def Form (type : UInt32) (value bytes : List UInt8) : Prop :=
  type ≠ 0 ∧ ∃ typeBytes lengthBytes,
    VarNumber.Form type.toNat typeBytes ∧ VarNumber.Form value.length lengthBytes ∧
      bytes = typeBytes ++ (lengthBytes ++ value)

/-- The header holds a type number in range and the length of the value. -/
def WellFormed (element : Element) : Prop :=
  element.type ≠ 0 ∧ ∃ typeBytes lengthBytes,
    VarNumber.Form element.type.toNat typeBytes ∧
      VarNumber.Form element.value.length lengthBytes ∧
        element.header = typeBytes ++ lengthBytes

theorem WellFormed.form {element : Element} (wellFormed : element.WellFormed) :
    Form element.type element.value element.wire := by
  rcases wellFormed with ⟨nonzero, typeBytes, lengthBytes, formType, formLength, header⟩
  refine ⟨nonzero, typeBytes, lengthBytes, formType, formLength, ?_⟩
  rw [wire, header, List.append_assoc]

variable {type : UInt32} {value bytes : List UInt8}

theorem form_iff : Form type value bytes ↔ ∃ element : Element,
    element.WellFormed ∧ element.wire = bytes ∧ element.type = type ∧ element.value = value := by
  refine ⟨?_, ?_⟩
  · intro form
    rcases form with ⟨nonzero, typeBytes, lengthBytes, formType, formLength, rfl⟩
    refine ⟨⟨type, typeBytes ++ lengthBytes, value⟩, ?_, ?_, rfl, rfl⟩
    · exact ⟨nonzero, typeBytes, lengthBytes, formType, formLength, rfl⟩
    · rw [wire, List.append_assoc]
  · intro h
    rcases h with ⟨element, wellFormed, rfl, rfl, rfl⟩
    exact wellFormed.form

theorem exists_form_iff {Holds : List UInt8 → Prop} :
    (∃ value, Form type value bytes ∧ Holds value) ↔ ∃ element : Element,
      element.WellFormed ∧ element.wire = bytes ∧ element.type = type ∧ Holds element.value := by
  simp only [form_iff]
  refine ⟨?_, ?_⟩
  · intro h
    rcases h with ⟨_, ⟨element, wellFormed, wire, sameType, rfl⟩, holds⟩
    exact ⟨element, wellFormed, wire, sameType, holds⟩
  · intro h
    rcases h with ⟨element, wellFormed, wire, sameType, holds⟩
    exact ⟨element.value, ⟨element, wellFormed, wire, sameType, rfl⟩, holds⟩

variable {element : Element} {cursor next : Cursor}

theorem reads_of_readNext (h : readNext cursor = .ok element next) :
    element.WellFormed ∧ cursor.Reads element.wire next := by
  unfold readNext at h
  obtain ⟨_, _, started, h⟩ := bind_eq_ok.mp h
  cases started
  obtain ⟨type, typed, readType, h⟩ := bind_eq_ok.mp h
  obtain ⟨length, sized, readLength, h⟩ := bind_eq_ok.mp h
  obtain ⟨_, _, here, h⟩ := bind_eq_ok.mp h
  cases here
  obtain ⟨nonzero, typeBytes, formType, readsType⟩ := VarNumber.readType_eq_ok_iff.mp readType
  obtain ⟨lengthBytes, formLength, readsLength⟩ := VarNumber.read_eq_ok_iff.mp readLength
  split at h
  · cases h
  · obtain ⟨value, last, readValue, h⟩ := bind_eq_ok.mp h
    obtain ⟨width, readsValue⟩ := Cursor.take_eq_ok_iff.mp (adaptExcept_eq_ok.mp readValue)
    have readsHeader : cursor.Reads (typeBytes ++ lengthBytes) sized :=
      Cursor.reads_append.mpr ⟨typed, readsType, readsLength⟩
    have header := readsHeader.take_unread
    cases h
    refine ⟨⟨nonzero, typeBytes, lengthBytes, formType, ?_, header⟩, ?_⟩
    · rwa [width]
    · unfold wire
      rw [header]
      exact Cursor.reads_append.mpr ⟨sized, readsHeader, readsValue⟩

theorem readNext_of_reads (wellFormed : element.WellFormed)
    (reads : cursor.Reads element.wire next) : readNext cursor = .ok element next := by
  rcases wellFormed with ⟨nonzero, typeBytes, lengthBytes, formType, formLength, header⟩
  rw [wire, header] at reads
  obtain ⟨sized, readsHeader, readsValue⟩ := Cursor.reads_append.mp reads
  obtain ⟨typed, readsType, readsLength⟩ := Cursor.reads_append.mp readsHeader
  have length := VarNumber.toNat_ofNat_of_form formLength
  have fits : ¬sized.size < element.value.length := by
    rw [readsValue.size]
    omega
  unfold readNext
  refine bind_eq_ok.mpr ⟨cursor, cursor, rfl, ?_⟩
  refine bind_eq_ok.mpr ⟨element.type, typed, ?_, ?_⟩
  · exact VarNumber.readType_eq_ok_iff.mpr ⟨nonzero, typeBytes, formType, readsType⟩
  refine bind_eq_ok.mpr ⟨UInt64.ofNat element.value.length, sized, ?_, ?_⟩
  · refine VarNumber.read_eq_ok_iff.mpr ⟨lengthBytes, ?_, readsLength⟩
    rwa [length]
  refine bind_eq_ok.mpr ⟨sized, sized, rfl, ?_⟩
  rw [length, if_neg fits]
  refine bind_eq_ok.mpr ⟨element.value, next, ?_, ?_⟩
  · exact adaptExcept_eq_ok.mpr (Cursor.take_eq_ok_iff.mpr ⟨rfl, readsValue⟩)
  · rw [readsHeader.take_unread, ← header]
    rfl

theorem readNext_eq_ok_iff : readNext cursor = .ok element next ↔
    element.WellFormed ∧ cursor.Reads element.wire next := by
  refine ⟨reads_of_readNext, ?_⟩
  intro h
  exact readNext_of_reads h.1 h.2

theorem read_eq_ok_iff {input : List UInt8} {used : Nat} : read input = .ok (element, used) ↔
    element.WellFormed ∧ used = element.wire.length ∧ ∃ rest, input = element.wire ++ rest := by
  unfold read
  refine ⟨?_, ?_⟩
  · intro h
    split at h
    · rename_i found next readElement
      obtain ⟨wellFormed, unread, position⟩ := readNext_eq_ok_iff.mp readElement
      cases h
      exact ⟨wellFormed, position.trans (Nat.zero_add _), next.unread, unread⟩
    · cases h
  · intro h
    rcases h with ⟨wellFormed, rfl, rest, rfl⟩
    have readElement : readNext (Cursor.ofBytes (element.wire ++ rest)) =
        .ok element (Cursor.after element.wire rest 0) :=
      readNext_eq_ok_iff.mpr ⟨wellFormed, Cursor.reads_after rfl⟩
    rw [EStateM.run, readElement]
    exact congrArg (fun used => Except.ok (element, used)) (Nat.zero_add _)

theorem decode_of_read {input : List UInt8} {used : Nat} (found : read input = .ok (element, used)) :
    decode input = if used < input.length then .error (.trailingBytes (input.length - used))
      else .ok element := by
  unfold decode
  rw [found]
  simp only [bind, Except.bind]
  split <;> rfl

theorem decode_eq_ok_iff {input : List UInt8} :
    decode input = .ok element ↔ element.WellFormed ∧ element.wire = input := by
  refine ⟨?_, ?_⟩
  · intro h
    cases outcome : read input with
    | error fault =>
      unfold decode at h
      rw [outcome] at h
      cases h
    | ok found =>
      rcases found with ⟨found, used⟩
      rw [decode_of_read outcome] at h
      obtain ⟨wellFormed, rfl, rest, rfl⟩ := read_eq_ok_iff.mp outcome
      split at h
      · cases h
      · rename_i complete
        cases h
        rw [List.length_append] at complete
        have := List.length_eq_zero_iff.mp (show rest.length = 0 by omega)
        rw [this, List.append_nil]
        exact ⟨wellFormed, rfl⟩
  · intro h
    rcases h with ⟨wellFormed, rfl⟩
    have outcome : read element.wire = .ok (element, element.wire.length) :=
      read_eq_ok_iff.mpr ⟨wellFormed, rfl, [], (List.append_nil _).symm⟩
    rw [decode_of_read outcome, if_neg (Nat.lt_irrefl _)]

theorem readAll_of_isEmpty {done : List Element} (empty : cursor.size = 0) :
    readAll done cursor = .ok done.reverse := by
  unfold readAll
  rw [if_pos empty]

theorem readAll_of_ok {done : List Element} (h : readNext cursor = .ok element next) :
    readAll done cursor = readAll (element :: done) next := by
  have := size_lt_of_readNext h
  rw [readAll, if_neg (by omega)]
  split
  · rename_i found rest h'
    cases h.symm.trans h'
    rfl
  · rename_i fault rest h'
    cases h.symm.trans h'

theorem readAll_eq_ok_iff {done elements : List Element} : readAll done cursor = .ok elements ↔
    ∃ later : List Element, elements = done.reverse ++ later ∧
      (∀ element ∈ later, element.WellFormed) ∧ later.flatMap wire = cursor.unread := by
  refine ⟨?_, ?_⟩
  · intro h
    fun_induction readAll done cursor with
    | case1 done cursor empty =>
      cases h
      rw [cursor.size_eq, List.length_eq_zero_iff] at empty
      exact ⟨[], (List.append_nil _).symm, nofun, empty.symm⟩
    | case2 done cursor nonempty element next readElement ih =>
      obtain ⟨wellFormed, unread, _⟩ := readNext_eq_ok_iff.mp readElement
      obtain ⟨later, rfl, allWellFormed, bytes⟩ := ih h
      refine ⟨element :: later, ?_, ?_, ?_⟩
      · simp
      · exact List.forall_mem_cons.mpr ⟨wellFormed, allWellFormed⟩
      · rw [List.flatMap_cons, bytes, unread]
    | case3 done cursor nonempty fault next readElement => cases h
  · intro h
    rcases h with ⟨later, rfl, wellFormed, bytes⟩
    -- The first of the later elements moves over to those that are done.
    induction later generalizing done cursor with
    | nil =>
      rw [List.append_nil]
      apply readAll_of_isEmpty
      rw [cursor.size_eq, ← bytes]
      rfl
    | cons first rest ih =>
      obtain ⟨firstWellFormed, wellFormed⟩ := List.forall_mem_cons.mp wellFormed
      have readFirst : readNext cursor = .ok first (Cursor.after first.wire (rest.flatMap wire) _) :=
        readNext_eq_ok_iff.mpr ⟨firstWellFormed, Cursor.reads_after bytes.symm⟩
      rw [readAll_of_ok readFirst]
      have same : done.reverse ++ first :: rest = (first :: done).reverse ++ rest := by simp
      rw [same]
      exact ih wellFormed rfl

/-- The value is the bytes of the children, one after the other. -/
def SplitsInto (element : Element) (children : List Element) : Prop :=
  (∀ child ∈ children, child.WellFormed) ∧ children.flatMap wire = element.value

theorem children_eq_ok_iff {elements : List Element} : element.children = .ok elements ↔
    (∀ child ∈ elements, child.WellFormed) ∧ elements.flatMap wire = element.value := by
  unfold children
  rw [readAll_eq_ok_iff]
  refine ⟨?_, ?_⟩
  · intro h
    rcases h with ⟨later, rfl, h⟩
    exact h
  · intro h
    exact ⟨elements, rfl, h⟩

def shortest (type : UInt32) (value : List UInt8) : List UInt8 :=
  VarNumber.shortest type.toUInt64 ++ (VarNumber.shortest value.length.toUInt64 ++ value)

theorem writes_prependElement {σ : Type} [Sink σ] {Holds : σ → List UInt8 → Prop}
    (faithful : Sink.Faithful Holds) {step : StateM σ Nat} (writes : Sink.Writes Holds step value) :
    Sink.Writes Holds (Sink.prependElement type step) (shortest type value) := by
  intro sink bytes held
  obtain ⟨sized, runValue, held⟩ := writes sink bytes held
  obtain ⟨typed, runLength, held⟩ :=
    VarNumber.writes_prepend faithful value.length.toUInt64 sized _ held
  obtain ⟨last, runType, held⟩ := VarNumber.writes_prepend faithful type.toUInt64 typed _ held
  refine ⟨last, ?_, ?_⟩
  · unfold Sink.prependElement
    rw [Sink.run_bind_of_run runValue, Sink.run_bind_of_run runLength,
      Sink.run_bind_of_run runType]
    unfold shortest
    rw [List.length_append, List.length_append, Nat.add_comm, Nat.add_comm value.length]
    rfl
  · unfold shortest
    rw [List.append_assoc, List.append_assoc]
    exact held

theorem length_shortest (type : UInt32) (value : List UInt8) : (shortest type value).length =
    VarNumber.size type.toUInt64 + VarNumber.size value.length.toUInt64 + value.length := by
  unfold shortest
  rw [List.length_append, List.length_append, VarNumber.length_shortest, VarNumber.length_shortest,
    Nat.add_assoc]

theorem length_le_shortest (type : UInt32) (value : List UInt8) :
    value.length ≤ (shortest type value).length := by
  rw [length_shortest]
  omega

theorem bytes_buffered (type : UInt32) (value : List UInt8) :
    (buffered type value).bytes = shortest type value := by
  have writes : Sink.Writes (fun (buffer : Buffer) bytes => buffer.bytes = bytes)
      (Sink.prependElement type (Sink.prependBytes value)) (shortest type value) :=
    writes_prependElement Sink.faithful_buffer (Sink.faithful_buffer.prependBytes value)
  obtain ⟨filled, run, holds⟩ := writes _ [] (Buffer.bytes_withCapacity
    (VarNumber.size type.toUInt64 + VarNumber.size value.length.toUInt64 + value.length))
  unfold buffered
  dsimp only
  rw [run, holds, List.append_nil]

/-- The header is split off where it ends, whatever the value begins with. -/
theorem ofValue_eq (type : UInt32) (value : List UInt8) : ofValue type value =
    ⟨type, VarNumber.shortest type.toUInt64 ++ VarNumber.shortest value.length.toUInt64, value⟩ := by
  unfold ofValue
  rw [bytes_buffered, shortest, ← List.append_assoc]
  dsimp only
  rw [← VarNumber.length_shortest, ← VarNumber.length_shortest, ← List.length_append,
    List.splitAt_eq, List.take_left, List.drop_left]

@[simp] theorem wire_ofValue (type : UInt32) (value : List UInt8) :
    (ofValue type value).wire = shortest type value := by
  rw [ofValue_eq, wire, shortest, List.append_assoc]

theorem wellFormed_ofValue (nonzero : type ≠ 0) (fits : value.length < 2 ^ 64) :
    (ofValue type value).WellFormed := by
  have formType := VarNumber.form_shortest type.toUInt64
  have formLength := VarNumber.form_shortest value.length.toUInt64
  rw [UInt32.toNat_toUInt64] at formType
  rw [VarNumber.toNat_toUInt64 fits] at formLength
  rw [ofValue_eq]
  exact ⟨nonzero, _, _, formType, formLength, rfl⟩

theorem form_shortest (nonzero : type ≠ 0) (fits : value.length < 2 ^ 64) :
    Form type value (shortest type value) := by
  have form := (wellFormed_ofValue nonzero fits).form
  rwa [wire_ofValue, ofValue_eq] at form

theorem Form.length_lt (form : Form type value bytes) : value.length < 2 ^ 64 := by
  rcases form with ⟨_, _, _, _, formLength, _⟩
  exact VarNumber.lt_of_form formLength

/-- A shorter value has no longer a length number, so that the whole element gets shorter too. -/
theorem Form.trims (form : Form type value bytes) {short : List UInt8} (trims : Trims short value) :
    Trims (shortest type short) bytes := by
  have fits := form.length_lt
  rcases form with ⟨_, typeBytes, lengthBytes, formType, formLength, rfl⟩
  rw [← UInt32.toNat_toUInt64] at formType
  rw [← VarNumber.toNat_toUInt64 fits] at formLength
  have trimsType := VarNumber.trims_of_form formType
  have trimsLength := VarNumber.trims_of_form formLength
  have narrower : VarNumber.size short.length.toUInt64 ≤ VarNumber.size value.length.toUInt64 := by
    apply VarNumber.size_mono
    rw [UInt64.le_iff_toNat_le, VarNumber.toNat_toUInt64 fits,
      VarNumber.toNat_toUInt64 (Nat.lt_of_le_of_lt trims.1 fits)]
    exact trims.1
  have lengthType := trimsType.1
  have lengthLength := trimsLength.1
  have lengthValue := trims.1
  rw [VarNumber.length_shortest] at lengthType lengthLength
  -- Each of the three parts is no longer than its counterpart, so equal sums make all three equal.
  unfold Trims
  rw [length_shortest]
  simp only [List.length_append]
  refine ⟨by omega, ?_⟩
  intro same
  unfold shortest
  have sameValue := trims.2 (by omega)
  subst sameValue
  rw [trimsType.2 (by rw [VarNumber.length_shortest]; omega),
    trimsLength.2 (by rw [VarNumber.length_shortest]; omega)]

end Element

/-- The bytes of the items one after the other, each in one of its forms. -/
inductive Sequence {α : Type} (Form : α → List UInt8 → Prop) : List α → List UInt8 → Prop
  | nil : Sequence Form [] []
  | cons {item : α} {items : List α} {front back : List UInt8} :
      Form item front → Sequence Form items back → Sequence Form (item :: items) (front ++ back)

namespace Sequence

variable {α : Type} {Form : α → List UInt8 → Prop} {items : List α} {bytes : List UInt8}

theorem flatMap {wire : α → List UInt8} (forms : ∀ item ∈ items, Form item (wire item)) :
    Sequence Form items (items.flatMap wire) := by
  induction items with
  | nil => exact nil
  | cons item rest ih =>
    obtain ⟨form, forms⟩ := List.forall_mem_cons.mp forms
    exact cons form (ih forms)

theorem trims {wire : α → List UInt8} (trims : ∀ item bytes, Form item bytes →
    Trims (wire item) bytes) (sequence : Sequence Form items bytes) :
    Trims (items.flatMap wire) bytes := by
  induction sequence with
  | nil => exact Trims.refl []
  | cons form _ ih => exact (trims _ _ form).append ih

/-- Where the forms of an item are the elements that it is read from, the sequences of the items are
the values that split into such elements. -/
theorem iff_exists_elements {Read : Element → α → Prop}
    (read : ∀ item bytes, Form item bytes ↔
      ∃ element : Element, element.WellFormed ∧ element.wire = bytes ∧ Read element item) :
    Sequence Form items bytes ↔ ∃ elements : List Element,
      (∀ element ∈ elements, element.WellFormed) ∧ elements.flatMap Element.wire = bytes ∧
        List.Forall₂ Read elements items := by
  refine ⟨?_, ?_⟩
  · intro sequence
    induction sequence with
    | nil => exact ⟨[], nofun, rfl, .nil⟩
    | cons form _ ih =>
      obtain ⟨element, wellFormed, rfl, readElement⟩ := (read _ _).mp form
      obtain ⟨elements, allWellFormed, rfl, readAll⟩ := ih
      exact ⟨element :: elements, List.forall_mem_cons.mpr ⟨wellFormed, allWellFormed⟩, rfl,
        .cons readElement readAll⟩
  · intro h
    rcases h with ⟨elements, wellFormed, rfl, readAll⟩
    induction readAll with
    | nil => exact nil
    | cons readElement _ ih =>
      obtain ⟨first, wellFormed⟩ := List.forall_mem_cons.mp wellFormed
      exact cons ((read _ _).mpr ⟨_, first, rfl, readElement⟩) (ih wellFormed)

end Sequence

end Delegations
