import Delegations.Proofs.Element.Extent

/-!
Values split into elements. Main statement: a value is split by taking elements off its front until
nothing is left, and there is no other way to cut it into elements (`children_cut_value_uniquely`).
-/
namespace Delegations.Element

variable {element : Element} {children : List Element} {pieces others : List (List UInt8)}
  {bytes : List UInt8}

theorem mapM_decode_eq_ok_iff : pieces.mapM decode = .ok children ↔
    (∀ child ∈ children, child.WellFormed) ∧ pieces = children.map wire := by
  simp only [mapM_eq_ok_iff, decode_eq_ok_iff]
  induction children generalizing pieces with
  | nil => simp
  | cons child rest ih =>
    simp only [List.forall₂_cons_right_iff, ih, List.forall_mem_cons, List.map_cons]
    constructor
    · rintro ⟨_, _, ⟨wellFormed, rfl⟩, ⟨allWellFormed, rfl⟩, rfl⟩
      exact ⟨⟨wellFormed, allWellFormed⟩, rfl⟩
    · rintro ⟨⟨wellFormed, allWellFormed⟩, rfl⟩
      exact ⟨_, _, ⟨wellFormed, rfl⟩, ⟨allWellFormed, rfl⟩, rfl⟩

def CutsInto (element : Element) (pieces : List (List UInt8)) : Prop :=
  pieces.flatten = element.value ∧ ∀ piece ∈ pieces, ∃ child, decode piece = .ok child

theorem cutsInto_of_children (split : element.children = .ok children) :
    element.CutsInto (children.map wire) := by
  obtain ⟨wellFormed, whole⟩ := children_eq_ok_iff.mp split
  refine ⟨whole, exists_mapM_eq_ok_iff.mp ⟨children, ?_⟩⟩
  exact mapM_decode_eq_ok_iff.mpr ⟨wellFormed, rfl⟩

theorem CutsInto.children_eq (cut : element.CutsInto pieces) : ∃ children,
    element.children = .ok children ∧ pieces.mapM decode = .ok children ∧
      pieces = children.map wire := by
  obtain ⟨children, decoded⟩ := exists_mapM_eq_ok_iff.mpr cut.2
  obtain ⟨wellFormed, rfl⟩ := mapM_decode_eq_ok_iff.mp decoded
  exact ⟨children, children_eq_ok_iff.mpr ⟨wellFormed, cut.1⟩, decoded, rfl⟩

theorem CutsInto.unique (cut : element.CutsInto pieces) (cut' : element.CutsInto others) :
    pieces = others := by
  obtain ⟨children, split, _, rfl⟩ := cut.children_eq
  obtain ⟨children', split', _, rfl⟩ := cut'.children_eq
  cases split.symm.trans split'
  rfl

/-- Takes elements off the front until nothing is left, unless that needs more turns. -/
def splitWithin : Nat → List UInt8 → Option (Except TlvError (List Element))
  | _, [] => some (.ok [])
  | 0, _ :: _ => none
  | turns + 1, byte :: rest =>
    match read (byte :: rest) with
    | .error fault => some (.error fault)
    | .ok (element, used) =>
      (splitWithin turns ((byte :: rest).drop used)).map (·.map (element :: ·))

theorem readAll_append (wellFormed : element.WellFormed) (rest : List UInt8) :
    readAll [] (Cursor.ofBytes (element.wire ++ rest)) =
      (readAll [] (Cursor.ofBytes rest)).map (element :: ·) := by
  cases outcome : readAll [] (Cursor.ofBytes rest) with
  | ok children =>
    obtain ⟨_, rfl, allWellFormed, bytes⟩ := readAll_eq_ok_iff.mp outcome
    refine readAll_eq_ok_iff.mpr ⟨element :: _, rfl, ?_, ?_⟩
    · exact List.forall_mem_cons.mpr ⟨wellFormed, allWellFormed⟩
    · rw [List.flatMap_cons, bytes]
      rfl
  | error fault =>
    obtain ⟨whole, allWellFormed, left, occupied, bytes, faulty⟩ := readAll_eq_error_iff.mp outcome
    refine readAll_eq_error_iff.mpr ⟨element :: whole, ?_, left, occupied, ?_, faulty⟩
    · exact List.forall_mem_cons.mpr ⟨wellFormed, allWellFormed⟩
    · rw [List.flatMap_cons, List.append_assoc, ← bytes]
      rfl

/-- Every turn takes at least two bytes, so that half as many turns as bytes are enough. -/
theorem splitWithin_eq {turns : Nat} (enough : bytes.length ≤ 2 * turns) :
    splitWithin turns bytes = some (readAll [] (Cursor.ofBytes bytes)) := by
  induction turns generalizing bytes with
  | zero =>
    obtain rfl := List.length_eq_zero_iff.mp (Nat.le_zero.mp enough)
    rw [readAll_of_isEmpty rfl]
    rfl
  | succ turns ih =>
    cases bytes with
    | nil =>
      rw [readAll_of_isEmpty rfl]
      rfl
    | cons byte rest =>
      unfold splitWithin
      cases outcome : read (byte :: rest) with
      | error fault =>
        have breaks : Breaks (byte :: rest) [] fault :=
          ⟨List.forall_mem_nil _, _, List.cons_ne_nil _ _, rfl, read_eq_error_iff.mp outcome⟩
        exact congrArg some (readAll_eq_error_iff.mpr ⟨[], breaks⟩).symm
      | ok found =>
        rcases found with ⟨element, used⟩
        obtain ⟨wellFormed, rfl, left, parts⟩ := read_eq_ok_iff.mp outcome
        -- The element takes the two bytes that the turns left over may be short of.
        have := wellFormed.two_le_length_wire
        rw [parts] at enough ⊢
        rw [List.length_append] at enough
        dsimp only
        rw [List.drop_left, ih (by omega), readAll_append wellFormed]
        rfl

/-- The element was decoded, or built with a type in range and a value whose length a length number
can say. -/
inductive Obtained : Element → Prop
  | decoded {input : List UInt8} {element : Element} : decode input = .ok element → Obtained element
  | built {type : UInt32} {value : List UInt8} : type ≠ 0 → value.length < 2 ^ 64 →
      Obtained (ofValue type value)

theorem Obtained.wellFormed (obtained : Obtained element) : element.WellFormed := by
  cases obtained with
  | decoded decoded => exact (decode_eq_ok_iff.mp decoded).1
  | built nonzero fits => exact wellFormed_ofValue nonzero fits

/-- Splitting ends after at most half as many turns as there are bytes. It succeeds exactly if the
value can be cut into elements at all. Then there is one way to do so: the children are the pieces
decoded one by one, and their bytes one after the other are the value. So the children that an
element is built from are found in it again, whatever its type is. -/
theorem children_cut_value_uniquely :
    (∀ element : Element,
      (∀ turns, element.value.length ≤ 2 * turns →
        splitWithin turns element.value = some element.children) ∧
      ((∃ children, element.children = .ok children) ↔ ∃ pieces, element.CutsInto pieces) ∧
      (∀ pieces others, element.CutsInto pieces → element.CutsInto others → pieces = others) ∧
      ∀ children, element.children = .ok children → children.flatMap wire = element.value ∧
        ∀ pieces, element.CutsInto pieces → pieces.mapM decode = .ok children) ∧
    ∀ type children, (∀ child ∈ children, Obtained child) →
      (ofValue type (children.flatMap wire)).children = .ok children := by
  constructor
  · intro element
    refine ⟨fun _ => splitWithin_eq, ?_, fun _ _ => CutsInto.unique, ?_⟩
    · constructor
      · rintro ⟨children, split⟩
        exact ⟨_, cutsInto_of_children split⟩
      · rintro ⟨pieces, cut⟩
        obtain ⟨children, split, _⟩ := cut.children_eq
        exact ⟨children, split⟩
    · intro children split
      refine ⟨(children_eq_ok_iff.mp split).2, ?_⟩
      intro pieces cut
      obtain ⟨others, split', decoded, _⟩ := cut.children_eq
      cases split.symm.trans split'
      exact decoded
  · intro type children obtained
    refine children_eq_ok_iff.mpr ⟨fun child mem => (obtained child mem).wellFormed, ?_⟩
    rw [ofValue_eq]

theorem children_cut_value_uniquely_mixed :
    (ofValue 0 [253, 0, 8, 1, 97, 9, 1, 98]).children =
      .ok [⟨8, [253, 0, 8, 1], [97]⟩, ofValue 9 [98]] ∧
    ∀ pieces, (ofValue 0 [253, 0, 8, 1, 97, 9, 1, 98]).CutsInto pieces →
      pieces = [[253, 0, 8, 1, 97], [9, 1, 98]] := by
  have decoded : decode [253, 0, 8, 1, 97] = .ok ⟨8, [253, 0, 8, 1], [97]⟩ := by cbv
  have split := children_cut_value_uniquely.2 0 [⟨8, [253, 0, 8, 1], [97]⟩, ofValue 9 [98]]
    (List.forall_mem_cons.mpr ⟨.decoded decoded,
      List.forall_mem_singleton.mpr (.built (by decide) (by decide))⟩)
  refine ⟨split, ?_⟩
  intro pieces cut
  exact (children_cut_value_uniquely.1 _).2.2.1 _ _ cut (cutsInto_of_children split)

end Delegations.Element
