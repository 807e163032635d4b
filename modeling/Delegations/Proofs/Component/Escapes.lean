import Delegations.Proofs.Name.Uri
import Delegations.Proofs.Text.Escapes

/-!
The escapes in the text of a component. Main statement: a text with a broken escape is refused, and
otherwise the bytes of the component are those that the value in the text stands for
(`ofUri_escapes`). An escape with a plus sign in place of a digit is accepted (`ofUri_plus`).
-/
namespace Delegations.Component

open Text.Percent (Accepted Broken Pair Resolves Unsigned)

variable {component : Component} {text value : List Char} {bytes : List UInt8}

/-- The text behind the first equals sign, if it follows digits and nothing else. -/
def valuePart (text : List Char) : List Char :=
  let digits := text.takeWhile (· != '=')
  if '=' ∈ text ∧ digits ≠ [] ∧ digits.all Char.isDigit then text.drop (digits.length + 1) else text

/-- A value that is taken for the mark of a value of periods. -/
def OnlyPeriods (value : List Char) : Prop := value ≠ [] ∧ ∀ c ∈ value, c = '.'

instance : DecidablePred OnlyPeriods := fun value =>
  haveI := List.decidableBAll (· = '.') value
  instDecidableAnd

theorem splitType?_cases (text : List Char) : splitType? text = none ∧ valuePart text = text ∨
    ∃ digits, splitType? text = some (digits, valuePart text) := by
  by_cases typed : '=' ∈ text
  · obtain ⟨digits, value, parts, first⟩ := List.eq_append_cons_of_mem typed
    have kept : ∀ c ∈ digits, (c != '=') = true := by
      intro c mem
      exact bne_iff_ne.mpr (ne_of_mem_of_not_mem mem first)
    have front : text.takeWhile (· != '=') = digits := by
      rw [parts, List.takeWhile_append_of_pos kept]
      simp
    have back : text.dropWhile (· != '=') = '=' :: value := by
      rw [parts, List.dropWhile_append_of_pos kept]
      simp
    have behind : text.drop (digits.length + 1) = value := by
      rw [parts]
      simp
    simp only [splitType?, valuePart, front, back, behind, typed, true_and]
    split
    · exact .inr ⟨digits, rfl⟩
    · exact .inl ⟨rfl, rfl⟩
  · refine .inl ⟨splitType?_of_not_mem typed, ?_⟩
    simp [valuePart, typed]

theorem ofUri_eq (text : List Char) : ∃ type : Except TlvError UInt32,
    (∀ error, type = .error error → ∃ fault, error = .uri fault) ∧
      ofUri text = type >>= fun type => readValue (valuePart text) >>= ofParts type := by
  rcases splitType?_cases text with ⟨untyped, whole⟩ | ⟨digits, typed⟩
  · refine ⟨.ok TypeNumber.genericComponent, nofun, ?_⟩
    rw [ofUri, untyped, whole]
    rfl
  · refine ⟨readType digits, ?_, ?_⟩
    · intro error failed
      unfold readType at failed
      split at failed
      · cases failed
      · cases failed
        exact ⟨_, rfl⟩
    · rw [ofUri, typed]

theorem readValue_of_ofUri (made : ofUri text = .ok component) :
    readValue (valuePart text) = .ok component.value := by
  obtain ⟨type, _, same⟩ := ofUri_eq text
  rw [same] at made
  obtain ⟨number, _, made⟩ := except_bind_eq_ok.mp made
  obtain ⟨value, read, made⟩ := except_bind_eq_ok.mp made
  unfold ofParts at made
  split at made
  · cases made
    exact read
  · cases made

theorem ofUri_of_readValue {fault : UriFault}
    (failed : readValue (valuePart text) = .error (.uri fault)) :
    ∃ fault, ofUri text = .error (.uri fault) := by
  obtain ⟨type, faulty, same⟩ := ofUri_eq text
  rw [same, failed]
  cases type with
  | error error =>
    obtain ⟨fault, rfl⟩ := faulty error rfl
    exact ⟨fault, rfl⟩
  | ok type => exact ⟨fault, rfl⟩

theorem readValue_of_not_onlyPeriods (other : ¬OnlyPeriods value) : readValue value =
    (Text.Percent.unescape (Text.utf8 value)).elim (.error (.uri (.percentEscape value))) .ok := by
  have mixed : ¬(value ≠ [] ∧ value.all (· == '.')) := by
    simpa [OnlyPeriods] using other
  rw [readValue, if_neg mixed]
  cases Text.Percent.unescape (Text.utf8 value) with
  | none => rfl
  | some bytes => rfl

theorem not_onlyPeriods_of_broken {escape : Char → Char → UInt8 → Prop}
    (broken : Broken escape value) : ¬OnlyPeriods value := by
  rintro ⟨_, periods⟩
  obtain ⟨after, suffix, _⟩ := broken
  have percent := periods '%' (suffix.mem (by simp))
  cases percent

theorem ofUri_of_broken (broken : Broken Accepted (valuePart text)) :
    ∃ fault, ofUri text = .error (.uri fault) := by
  have failed := readValue_of_not_onlyPeriods (not_onlyPeriods_of_broken broken)
  rw [Text.Percent.unescape_of_broken broken] at failed
  exact ofUri_of_readValue failed

theorem resolves_of_ofUri (made : ofUri text = .ok component)
    (other : ¬OnlyPeriods (valuePart text)) :
    Resolves Accepted (valuePart text) component.value := by
  have read := readValue_of_ofUri made
  rw [readValue_of_not_onlyPeriods other] at read
  cases resolved : Text.Percent.unescape (Text.utf8 (valuePart text)) with
  | none =>
    rw [resolved] at read
    cases read
  | some bytes =>
    rw [resolved] at read
    cases read
    exact Text.Percent.resolves_of_unescape resolved

theorem length_lt_of_splitType? {digits : List Char}
    (typed : splitType? text = some (digits, value)) : value.length < text.length := by
  unfold splitType? at typed
  split at typed
  · cases typed
  · rename_i c rest behind
    have shorter := List.length_dropWhile_le (· != '=') text
    rw [behind, List.length_cons] at shorter
    dsimp only at typed
    split at typed
    · cases typed
      omega
    · cases typed

theorem ofUri_of_resolves (untyped : valuePart text = text) (other : ¬OnlyPeriods text)
    (resolves : Resolves Accepted text bytes) : ofUri text = .ok (.generic bytes) := by
  have resolved : Text.Percent.unescape (Text.utf8 text) = some bytes :=
    Text.Percent.unescapeFrom_of_resolves resolves []
  have read : readValue text = .ok bytes := by
    rw [readValue_of_not_onlyPeriods other, resolved]
    rfl
  rcases splitType?_cases text with ⟨none, _⟩ | ⟨digits, typed⟩
  · rw [ofUri, none, read]
    rfl
  · have shorter := length_lt_of_splitType? typed
    rw [untyped] at shorter
    exact absurd shorter (Nat.lt_irrefl _)

/-- A text is refused if some percent sign in its value part has no escape behind it. Otherwise the
bytes of its component are those that the value part stands for, unless it is of periods alone. Where
no plus sign follows a percent sign, the escapes are pairs of hexadecimal digits; elsewhere a plus
sign and one digit are an escape, too. Without a type in front, every text that stands for some bytes
is read, but for periods alone. -/
theorem ofUri_escapes (text : List Char) :
    (Unsigned (valuePart text) →
      (Broken Pair (valuePart text) → ∃ fault, ofUri text = .error (.uri fault)) ∧
      ∀ component, ofUri text = .ok component → ¬OnlyPeriods (valuePart text) →
        Resolves Pair (valuePart text) component.value) ∧
    (Broken Accepted (valuePart text) → ∃ fault, ofUri text = .error (.uri fault)) ∧
    (∀ component, ofUri text = .ok component → ¬OnlyPeriods (valuePart text) →
      Resolves Accepted (valuePart text) component.value) ∧
    (valuePart text = text → ¬OnlyPeriods text → ∀ bytes, Resolves Accepted text bytes →
      ofUri text = .ok (.generic bytes)) := by
  refine ⟨?_, ofUri_of_broken, fun component => resolves_of_ofUri, ?_⟩
  · intro unsigned
    refine ⟨?_, ?_⟩
    · intro broken
      exact ofUri_of_broken (unsigned.broken broken)
    · intro component made other
      exact unsigned.resolves (resolves_of_ofUri made other)
  · intro untyped other bytes
    exact ofUri_of_resolves untyped other

theorem ofUri_escapes_accented : Resolves Pair (valuePart "33=%2Fé".toList) [47, 195, 169] ∧
    (∃ fault, ofUri "%2F%é".toList = .error (.uri fault)) ∧
    ofUri "%2fé".toList = .ok (.generic [47, 195, 169]) := by
  have made : ofUri "33=%2Fé".toList = .ok ⟨33, [47, 195, 169], by decide, by decide⟩ := by cbv
  have broken : Broken Pair (valuePart "%2F%é".toList) := by
    refine ⟨['é'], by decide, ?_⟩
    rintro c d byte rest _ ⟨⟩
  obtain ⟨whole, _⟩ := ofUri_escapes "33=%2Fé".toList
  obtain ⟨cut, _⟩ := ofUri_escapes "%2F%é".toList
  have stands : Resolves Accepted "%2fé".toList [47, 195, 169] :=
    .escaped (.inl ⟨2, 15, by decide, by decide, rfl⟩) (.plain (by decide) .nil)
  obtain ⟨_, _, _, read⟩ := ofUri_escapes "%2fé".toList
  exact ⟨(whole (by decide)).2 _ made (by decide), (cut (by decide)).1 broken,
    read (by decide) (by decide) _ stands⟩

/-- The plus sign is no digit, and yet the escape stands for a byte. -/
theorem ofUri_plus : Broken Pair (valuePart "%+f".toList) ∧
    ofUri "%+f".toList = .ok (.generic [15]) := by
  refine ⟨⟨['+', 'f'], by decide, ?_⟩, ?_⟩
  · rintro c d byte rest ⟨m, n, high, _⟩ ⟨⟩
    have noDigit : Text.Hex.digit? (UInt8.ofNat '+'.toNat) = none := by decide
    cases noDigit.symm.trans high.reads.2.2
  · cbv

end Delegations.Component
