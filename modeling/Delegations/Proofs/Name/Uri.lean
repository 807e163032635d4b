import Delegations.Name.Uri
import Delegations.Proofs.Reading
import Delegations.Proofs.Text.Decimal
import Delegations.Proofs.Text.Percent
import Delegations.Proofs.Text.WhiteSpace

/-!
Names and components as texts. Main statement: the text of a name or of a component denotes just
that one, whatever its bytes are (`read_back_from_uri`).
-/
namespace Delegations

open Text.Percent (escape isPlain isUnreserved)

namespace Component

variable {component : Component} {value : List UInt8} {digits : List Char} {c : Char}

def valueUri (value : List UInt8) : List Char :=
  (if isPeriods value then ['.', '.', '.'] else []) ++ escape value

def typeUri (type : UInt32) : List Char :=
  if type = TypeNumber.genericComponent then [] else Nat.toDigits 10 type.toNat ++ ['=']

theorem uri_eq (component : Component) :
    component.uri = typeUri component.type ++ valueUri component.value := by
  simp [uri, typeUri, valueUri, isGeneric]

theorem isPlain_of_mem_valueUri (mem : c ∈ valueUri value) : isPlain c := by
  rcases List.mem_append.mp mem with mem | mem
  · split at mem
    · have period : c = '.' := by simpa using mem
      rw [period]
      decide
    · cases mem
  · exact Text.Percent.isPlain_of_mem_escape mem

theorem isPlain_of_isDigit (digit : c.isDigit) : isPlain c := by
  simp only [Char.isDigit, ge_iff_le, UInt32.le_iff_toNat_le, Bool.and_eq_true,
    decide_eq_true_eq] at digit
  change 48 ≤ c.toNat ∧ c.toNat ≤ 57 at digit
  have ascii : c.toNat < 128 := by omega
  have unreserved : isUnreserved (UInt8.ofNat c.toNat) := by
    rw [Text.Percent.isUnreserved_iff, UInt8.toNat_ofNat']
    omega
  simp [isPlain, ascii, unreserved]

theorem isPlain_or_eq_of_mem_uri (mem : c ∈ component.uri) : isPlain c ∨ c = '=' := by
  rw [uri_eq] at mem
  rcases List.mem_append.mp mem with mem | mem
  · unfold typeUri at mem
    split at mem
    · cases mem
    · rcases List.mem_append.mp mem with mem | mem
      · exact .inl (isPlain_of_isDigit (Text.Decimal.isDigit_of_mem_toDigits mem))
      · exact .inr (List.mem_singleton.mp mem)
  · exact .inl (isPlain_of_mem_valueUri mem)

theorem valueUri_ne_nil (value : List UInt8) : valueUri value ≠ [] := by
  unfold valueUri
  split
  · simp
  · rename_i other
    intro none
    have periods := Text.Percent.all_period_escape value
    rw [show escape value = [] from none] at periods
    exact other periods.symm

theorem uri_ne_nil (component : Component) : component.uri ≠ [] := by
  rw [uri_eq]
  exact List.append_ne_nil_of_right_ne_nil _ (valueUri_ne_nil component.value)

theorem readValue_valueUri (value : List UInt8) : readValue (valueUri value) = .ok value := by
  have periods := Text.Percent.all_period_escape value
  unfold readValue valueUri
  by_cases only : isPeriods value
  · have unreserved : value.all isUnreserved := by
      simp only [isPeriods, List.all_eq_true, beq_iff_eq] at only ⊢
      intro byte mem
      rw [only byte mem]
      decide
    have marked : (['.', '.', '.'] ++ escape value).all (· == '.') := by
      rw [List.all_append, periods]
      exact only
    rw [if_pos only, if_pos ⟨by simp, marked⟩, if_neg (by simp)]
    exact congrArg Except.ok (Text.Percent.utf8_escape_of_isUnreserved unreserved)
  · rw [if_neg only, List.nil_append, if_neg, Text.Percent.unescape_escape]
    rw [periods]
    exact fun h => only h.2

theorem splitType?_of_not_mem {text : List Char} (untyped : '=' ∉ text) :
    splitType? text = none := by
  have all : text.dropWhile (· != '=') = [] := by
    rw [List.dropWhile_eq_nil_iff]
    intro c mem
    exact bne_iff_ne.mpr (ne_of_mem_of_not_mem mem untyped)
  simp [splitType?, all]

theorem splitType?_typed (nonempty : digits ≠ []) (decimal : ∀ c ∈ digits, c.isDigit)
    (rest : List Char) : splitType? (digits ++ '=' :: rest) = some (digits, rest) := by
  have front : ∀ c ∈ digits, (c != '=') = true := by
    intro c mem
    rw [bne_iff_ne]
    rintro rfl
    exact absurd (decimal '=' mem) (by decide)
  unfold splitType?
  rw [List.dropWhile_append_of_pos front, List.takeWhile_append_of_pos front]
  simpa [nonempty] using decimal

theorem readType_toDigits (type : UInt32) : readType (Nat.toDigits 10 type.toNat) = .ok type := by
  rw [readType, Text.Decimal.read_toDigits type.toNat_lt]
  simp

theorem ofUri_uri (component : Component) : ofUri component.uri = .ok component := by
  have made : ofParts component.type component.value = .ok component :=
    dif_pos ⟨component.type_pos, component.type_le⟩
  rw [uri_eq, typeUri]
  by_cases generic : component.type = TypeNumber.genericComponent
  · have untyped : '=' ∉ valueUri component.value := mt isPlain_of_mem_valueUri (by decide)
    rw [if_pos generic, List.nil_append, ofUri, splitType?_of_not_mem untyped]
    simp only [readValue_valueUri, ← generic]
    exact made
  · have decimal : ∀ c ∈ Nat.toDigits 10 component.type.toNat, c.isDigit :=
      fun _ => Text.Decimal.isDigit_of_mem_toDigits
    rw [if_neg generic, List.append_assoc, List.singleton_append, ofUri,
      splitType?_typed Nat.toDigits_ne_nil decimal]
    simp only [readType_toDigits, readValue_valueUri]
    exact made

end Component

namespace Name

theorem splitOn_flatMap {segments : List (List Char)}
    (whole : ∀ segment ∈ segments, '/' ∉ segment) :
    (segments.flatMap ('/' :: ·)).splitOn '/' = [] :: segments := by
  have joined : segments.flatMap ('/' :: ·) = ['/'].intercalate ([] :: segments) := by
    induction segments with
    | nil => rfl
    | cons first rest ih =>
      rw [List.flatMap_cons, ih (List.forall_mem_cons.mp whole).2]
      cases rest <;> simp
  rw [joined, List.splitOn_intercalate]
  · simpa using whole
  · simp

theorem isPlain_or_eq_of_mem_uri {name : Name} {c : Char} (mem : c ∈ name.uri) :
    isPlain c ∨ c = '=' ∨ c = '/' := by
  unfold uri at mem
  split at mem
  · exact .inr (.inr (List.mem_singleton.mp mem))
  · obtain ⟨component, _, mem⟩ := List.mem_flatMap.mp mem
    rcases List.mem_cons.mp mem with slash | mem
    · exact .inr (.inr slash)
    · exact (Component.isPlain_or_eq_of_mem_uri mem).imp_right .inl

theorem uri_ne_nil (name : Name) : name.uri ≠ [] := by
  unfold uri
  split
  · simp
  · rename_i some
    obtain ⟨first, rest, components⟩ := List.exists_cons_of_ne_nil some
    simp [components]

theorem isWhiteSpace_of_mem_uri {name : Name} {c : Char} (mem : c ∈ name.uri) :
    Text.isWhiteSpace c = false := by
  rcases isPlain_or_eq_of_mem_uri mem with plain | rfl | rfl
  · exact Text.Percent.isWhiteSpace_of_isPlain plain
  · decide
  · decide

theorem trim_uri (name : Name) : Text.trim name.uri = name.uri :=
  Text.trim_eq_self fun _ => isWhiteSpace_of_mem_uri

theorem segments_uri (name : Name) : segments name.uri = name.components.map Component.uri := by
  have query : '?' ∉ name.uri := mt isPlain_or_eq_of_mem_uri (by decide)
  have fragment : '#' ∉ name.uri := mt isPlain_or_eq_of_mem_uri (by decide)
  have path : ∀ c ∈ name.uri, (c != '?' && c != '#') = true := by
    intro c mem
    simp [ne_of_mem_of_not_mem mem query, ne_of_mem_of_not_mem mem fragment]
  rw [segments, trim_uri, List.takeWhile_eq_self_iff.mpr path, uri]
  split
  · rename_i none
    rw [none]
    decide
  · have unschemed : dropScheme (name.components.flatMap fun component => '/' :: component.uri) =
        (name.components.map Component.uri).flatMap ('/' :: ·) := by
      rw [List.flatMap_map]
      cases name.components <;> rfl
    have whole : ∀ segment ∈ name.components.map Component.uri, '/' ∉ segment := by
      intro segment mem
      obtain ⟨component, _, rfl⟩ := List.mem_map.mp mem
      exact mt Component.isPlain_or_eq_of_mem_uri (by decide)
    rw [unschemed, splitOn_flatMap whole, List.filter_cons_of_neg (by simp),
      List.filter_eq_self.mpr]
    simpa using fun component _ => component.uri_ne_nil

theorem ofUri_uri (name : Name) : ofUri name.uri = .ok name := by
  have read : (name.components.map Component.uri).mapM Component.ofUri = .ok name.components := by
    rw [mapM_eq_ok_iff, List.forall₂_map_left_iff, List.forall₂_same]
    exact fun component _ => component.ofUri_uri
  rw [ofUri, segments_uri, read]
  rfl

/-- Printing and reading back gives the same name or component for all types and all bytes, also
where the bytes would be white space, delimiters or periods by themselves. -/
theorem read_back_from_uri : (∀ name : Name, ofUri (toString name).toList = .ok name) ∧
    ∀ component : Component, Component.ofUri component.uri = .ok component := by
  refine ⟨?_, Component.ofUri_uri⟩
  intro name
  rw [show (toString name).toList = name.uri from String.toList_ofList]
  exact ofUri_uri name

end Name

end Delegations
