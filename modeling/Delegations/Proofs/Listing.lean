import Delegations.Proofs.Listing.Reading
import Delegations.Proofs.Text.Hex

/-!
Listings read, encoded and shown again. Main statement: with any lawful codec the encoding of a
listing shows just the list that the listing stands for (`decode_of_respells_encode`).
-/
namespace Delegations.Listing

open DelegationList (insertEach isListType isListType_iff shortest)
open Text.Hex (Codec Respells)

variable {codec : Codec} {policy : ConflictPolicy} {text : List Char} {list : DelegationList}
  {type : UInt32}

theorem ordered_of_read (h : read policy text = .ok list) : list.items.Pairwise (· ≤ ·) := by
  obtain ⟨delegations, _, rfl⟩ := read_eq_ok_iff.mp h
  have ordered : (insertEach policy delegations .empty).Ordered :=
    DelegationList.ordered_empty.insertEach delegations
  exact ordered (DelegationList.isSorted_insertEach delegations .empty)

theorem encode_of_read (h : read policy text = .ok list) : encode codec type policy text =
    (list.toWire type).mapError .list >>= fun wire => .ok (codec.encode wire) := by
  unfold encode
  rw [h]
  rfl

theorem decode_of_respells (lawful : codec.Lawful) (sorted : Bool) {wire : List UInt8}
    {shown : List Char} (respells : Respells (codec.encode wire) shown) :
    decode codec sorted shown = (DelegationList.ofWire wire sorted).mapError .format := by
  unfold decode
  dsimp only
  rw [lawful.decode_of_respells respells]
  rfl

/-- The list of a listing is in order, so that it is the same whether it is sorted or not when its
digits are read. -/
theorem decode_of_read (lawful : codec.Lawful) (h : read policy text = .ok list)
    (nonempty : list.items ≠ []) (accepted : isListType type)
    (fits : (shortest type list.items).length < 2 ^ 64) (sorted : Bool) {shown : List Char}
    (respells : Respells (codec.encode (shortest type list.items)) shown) :
    decode codec sorted shown = .ok ⟨sorted, list.items⟩ := by
  obtain ⟨_, _, readBack⟩ := DelegationList.read_written nonempty accepted fits
  have arranges := DelegationList.arranges_of_ordered (ordered_of_read h) sorted
  rw [decode_of_respells lawful sorted respells, (readBack sorted _ arranges).1]
  rfl

/-- The digits that a listing is encoded as give its list back, however they are spaced and in
either case, and whether or not it is sorted. Only a faulty or an empty listing has none. -/
theorem decode_of_respells_encode (codec : Codec) (lawful : codec.Lawful) (policy : ConflictPolicy)
    (text : List Char) (type : UInt32)
    (accepted : type = TypeNumber.content ∨ type = TypeNumber.forwardingHint) :
    (∀ error, read policy text = .error error → encode codec type policy text = .error error) ∧
      ∀ list, read policy text = .ok list →
        (list.items = [] → encode codec type policy text = .error (.list (.format .emptyList))) ∧
        (list.items ≠ [] → ∃ wire, list.toWire type = .ok wire ∧
          encode codec type policy text = .ok (codec.encode wire) ∧
          (wire.length < 2 ^ 64 → ∀ sorted shown, Respells (codec.encode wire) shown →
            decode codec sorted shown = .ok ⟨sorted, list.items⟩)) := by
  have isList := isListType_iff.mpr accepted
  refine ⟨?_, ?_⟩
  · intro error failed
    unfold encode
    rw [failed]
    rfl
  · intro list parsed
    rw [encode_of_read parsed]
    refine ⟨?_, ?_⟩
    · intro empty
      rw [DelegationList.toWire_empty empty isList]
      rfl
    · intro nonempty
      have written := DelegationList.toWire_eq nonempty isList
      refine ⟨_, written, ?_, ?_⟩
      · rw [written]
        rfl
      · intro fits sorted shown respells
        exact decode_of_read lawful parsed nonempty isList fits sorted respells

theorem decode_of_respells_encode_skipped : ∃ digits,
    encode Text.Hex.codec 30 .skip "# hint\n20 /\n\n10 ndn:/\n".toList = .ok digits ∧
      Respells digits "1E07 1f05 1E01 14 0700\n".toList ∧
      decode Text.Hex.codec true "1E07 1f05 1E01 14 0700\n".toList =
        .ok ⟨true, [⟨20, ⟨[]⟩⟩]⟩ := by
  have accepted : read .skip "# hint\n20 /\n\n10 ndn:/\n".toList =
      .ok ⟨true, [⟨20, ⟨[]⟩⟩]⟩ := by cbv
  obtain ⟨wire, written, encoded, shows⟩ :=
    ((decode_of_respells_encode Text.Hex.codec Text.Hex.lawful_codec .skip _ 30 (.inr rfl)).2 _
      accepted).2 (List.cons_ne_nil _ _)
  have bytes : wire = [30, 7, 31, 5, 30, 1, 20, 7, 0] := by
    refine Except.ok.inj (written.symm.trans ?_)
    cbv
  subst bytes
  have respells : Respells (Text.Hex.codec.encode [30, 7, 31, 5, 30, 1, 20, 7, 0])
      "1E07 1f05 1E01 14 0700\n".toList := by decide
  exact ⟨_, encoded, respells, shows (by decide) true _ respells⟩

end Delegations.Listing
