import Delegations.DelegationList
import Delegations.Proofs.Name.Uri

/-!
Delegation lists as texts. Main statement: lists that are shown alike hold the same delegations in the
same order (`toString_eq_iff`), since no name has a character in its text that a list puts between
names, preferences and delegations.
-/
namespace Delegations

theorem Name.uri_injective : Function.Injective Name.uri := by
  intro a b same
  have read := ofUri_uri a
  rw [same, ofUri_uri] at read
  exact (Except.ok.inj read).symm

namespace Delegation

theorem text_injective : Function.Injective text := by
  intro a b same
  have name : '(' ∉ a.name.uri := mt Name.isPlain_or_eq_of_mem_uri (by decide)
  have digits : '(' ∉ Nat.toDigits 10 a.preference.toNat :=
    mt Text.Decimal.isDigit_of_mem_toDigits (by decide)
  obtain ⟨names, _, preferences⟩ := (List.append_cons_inj_of_notMem name digits).mp
    (List.append_cancel_right same)
  cases a
  cases b
  simp only [mk.injEq]
  exact ⟨UInt64.toNat_inj.mp (Text.Decimal.toDigits_injective preferences),
    Name.uri_injective names⟩

theorem text_ne_nil (delegation : Delegation) : delegation.text ≠ [] := by
  simp [text]

theorem comma_not_mem_text (delegation : Delegation) : ',' ∉ delegation.text := by
  have name : ',' ∉ delegation.name.uri := mt Name.isPlain_or_eq_of_mem_uri (by decide)
  have digits : ',' ∉ Nat.toDigits 10 delegation.preference.toNat :=
    mt Text.Decimal.isDigit_of_mem_toDigits (by decide)
  simp [text, name, digits]

end Delegation

theorem filter_splitOn_intercalate {mark : Char} {texts : List (List Char)}
    (whole : ∀ text ∈ texts, mark ∉ text) (occupied : ∀ text ∈ texts, text ≠ []) :
    (([mark].intercalate texts).splitOn mark).filter (· ≠ []) = texts := by
  by_cases none : texts = []
  · rw [none]
    simp
  · rw [List.splitOn_intercalate mark whole none, List.filter_eq_self]
    simpa using occupied

namespace DelegationList

theorem text_eq_iff {a b : DelegationList} : a.text = b.text ↔ a.items = b.items := by
  constructor
  · intro same
    have joined := List.append_cancel_right (List.cons.inj same).2
    have split (items : List Delegation) : (([','].intercalate (items.map Delegation.text)).splitOn
        ',').filter (· ≠ []) = items.map Delegation.text := by
      apply filter_splitOn_intercalate
      · simpa using fun delegation _ => delegation.comma_not_mem_text
      · simpa using fun delegation _ => delegation.text_ne_nil
    have texts := split a.items
    rw [joined, split] at texts
    exact (List.map_injective_iff.mpr Delegation.text_injective texts).symm
  · intro same
    rw [text, text, same]

/-- Lists have the same text exactly if they are alike, which means that they hold the same
delegations in the same order, whatever bytes the names are of. -/
theorem toString_eq_iff (a b : DelegationList) :
    (toString a = toString b ↔ (a == b) = true) ∧ ((a == b) = true ↔ a.items = b.items) := by
  have alike : (a == b) = true ↔ a.items = b.items := by
    change (a.items == b.items) = true ↔ _
    exact beq_iff_eq
  have shown : toString a = toString b ↔ a.text = b.text := String.ofList_inj
  exact ⟨shown.trans (text_eq_iff.trans alike.symm), alike⟩

end DelegationList

end Delegations
