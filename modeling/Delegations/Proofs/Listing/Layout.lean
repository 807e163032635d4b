import Delegations.Proofs.Listing.Reading
import Delegations.Proofs.Name.Uri

/-!
Delegations written down line by line. Main statement: however they are spaced and whatever remarks
stand between them, their listing is read as what they give when they are inserted one by one
(`read_layout`).
-/
namespace Delegations.Listing

open DelegationList (Arranges)
open Text (IsBlank)

def entry (delegation : Delegation) : List Char :=
  Nat.toDigits 10 delegation.preference.toNat ++ ' ' :: delegation.name.uri

/-- What may stand on a line: nothing, a remark or a delegation, with white space around it. -/
inductive Holds : Option Delegation → List Char → Prop
  | blank {line : List Char} : IsBlank line → Holds none line
  | remark {before : List Char} (words : List Char) : IsBlank before →
      Holds none (before ++ '#' :: words)
  | entry {before after : List Char} (delegation : Delegation) : IsBlank before → IsBlank after →
      Holds (some delegation) (before ++ entry delegation ++ after)

/-- The text has the delegations on its lines, and every line but the last has one of two ends. -/
inductive Lists : List Delegation → List Char → Prop
  | last {found : Option Delegation} {line : List Char} : Holds found line → '\n' ∉ line →
      Lists found.toList line
  | line {found : Option Delegation} {line ending text : List Char} {rest : List Delegation} :
      Holds found line → '\n' ∉ line → ending = ['\n'] ∨ ending = ['\r', '\n'] →
        Lists rest text → Lists (found.toList ++ rest) (line ++ ending ++ text)

variable {delegation : Delegation} {delegations : List Delegation} {text line : List Char}
  {found : Option Delegation}

theorem isWhiteSpace_of_mem_toDigits {n : Nat} {c : Char} (mem : c ∈ Nat.toDigits 10 n) :
    Text.isWhiteSpace c = false :=
  Text.Percent.isWhiteSpace_of_isPlain
    (Component.isPlain_of_isDigit (Text.Decimal.isDigit_of_mem_toDigits mem))

theorem trim_entry (delegation : Delegation) : Text.trim (entry delegation) = entry delegation := by
  apply Text.trim_eq_self_of_ends
  · intro c mem
    rw [entry, List.head?_append_of_ne_nil _ Nat.toDigits_ne_nil] at mem
    exact isWhiteSpace_of_mem_toDigits (List.mem_of_mem_head? mem)
  · intro c mem
    rw [entry, List.append_cons, List.getLast?_append_of_ne_nil _ delegation.name.uri_ne_nil] at mem
    exact Name.isWhiteSpace_of_mem_uri (List.mem_of_mem_getLast? mem)

theorem relevant_entry (delegation : Delegation) : Relevant (entry delegation) := by
  obtain ⟨first, rest, starts⟩ := List.exists_cons_of_ne_nil
    (Nat.toDigits_ne_nil : Nat.toDigits 10 delegation.preference.toNat ≠ [])
  have digit : first.isDigit := Text.Decimal.isDigit_of_mem_toDigits (by rw [starts]; simp)
  unfold Relevant
  rw [trim_entry, entry, starts]
  refine ⟨by simp, ?_⟩
  rintro h
  cases h
  exact absurd digit (by decide)

theorem readLine_entry (delegation : Delegation) :
    readLine (entry delegation) = .ok (some delegation) := by
  have split : Text.splitAtWhiteSpace? (entry delegation) =
      some (Nat.toDigits 10 delegation.preference.toNat, delegation.name.uri) :=
    Text.splitAtWhiteSpace?_append (fun _ => isWhiteSpace_of_mem_toDigits) (by decide) _
  have decimal : Text.Decimal.read UInt64.size (Nat.toDigits 10 delegation.preference.toNat) =
      .ok delegation.preference.toNat :=
    Text.Decimal.read_toDigits delegation.preference.toNat_lt
  unfold readLine
  rw [if_neg (relevant_iff.mp (relevant_entry delegation)), trim_entry, split]
  simp only [decimal, Name.trim_uri, Name.ofUri_uri]
  change Except.ok (some (Delegation.mk (UInt64.ofNat _) delegation.name)) = _
  rw [UInt64.ofNat_toNat]

theorem readLine_of_trim_eq {other : List Char} (same : Text.trim line = Text.trim other) :
    readLine line = readLine other := by
  unfold readLine
  rw [same]

theorem Holds.readLine_eq (holds : Holds found line) : readLine line = .ok found := by
  cases holds with
  | blank blank =>
    apply readLine_of_not_relevant
    simp [Relevant, Text.trim_of_isBlank blank]
  | remark words blank =>
    apply readLine_of_not_relevant
    rw [Relevant, Text.trim_append_left blank, Text.trim_cons (by decide)]
    simp
  | entry delegation before after =>
    rw [← readLine_entry delegation]
    apply readLine_of_trim_eq
    rw [Text.trim_append_right after, Text.trim_append_left before]

theorem Lists.tells (lists : Lists delegations text) : Tells (Text.lines text) delegations := by
  induction lists with
  | @last found line holds whole =>
    have read := holds.readLine_eq
    rw [Text.lines_of_not_mem whole]
    split
    · -- A last line without characters counts as none.
      rename_i empty
      rw [empty] at read
      cases read
      exact List.Forall₂.nil
    · rw [← List.append_nil found.toList]
      exact Tells.cons read List.Forall₂.nil
  | @line _ line _ text _ holds whole ends _ ih =>
    rcases ends with rfl | rfl
    · -- White space at the end of the line may be a carriage return, which goes with the line feed.
      have read := (readLine_of_trim_eq (Text.trim_dropCarriageReturn line)).trans holds.readLine_eq
      rw [List.append_assoc, List.singleton_append, Text.lines_append_lineFeed whole]
      exact ih.cons read
    · have wholeReturn : '\n' ∉ line ++ ['\r'] := by simpa using whole
      have split : line ++ ['\r', '\n'] ++ text = (line ++ ['\r']) ++ '\n' :: text := by simp
      rw [split, Text.lines_append_lineFeed wholeReturn, Text.dropCarriageReturn_append]
      exact ih.cons holds.readLine_eq

theorem lineFeed_not_mem_entry (delegation : Delegation) : '\n' ∉ entry delegation := by
  have digits : '\n' ∉ Nat.toDigits 10 delegation.preference.toNat :=
    mt Text.Decimal.isDigit_of_mem_toDigits (by decide)
  have name : '\n' ∉ delegation.name.uri := mt Name.isPlain_or_eq_of_mem_uri (by decide)
  simp [entry, digits, name]

theorem lists_entries (delegations : List Delegation) :
    Lists delegations (delegations.flatMap (entry · ++ ['\n'])) := by
  have blank : IsBlank [] := nofun
  induction delegations with
  | nil => exact .last (.blank blank) nofun
  | cons delegation rest ih =>
    have holds : Holds (some delegation) (entry delegation) := by
      simpa using Holds.entry delegation blank blank
    exact .line holds (lineFeed_not_mem_entry delegation) (.inl rfl) ih

/-- Every text that has the delegations on its lines, and there is one for any row of them, is read as
what they give when they are inserted into an empty list in turn. Appended, all of them are there, in
order. -/
theorem read_layout (policy : ConflictPolicy) (delegations : List Delegation) :
    Lists delegations (delegations.flatMap (entry · ++ ['\n'])) ∧
      ∀ text, Lists delegations text →
        read policy text =
          .ok (delegations.foldl (fun list delegation => (list.insert delegation policy).2) .empty) ∧
        ∃ list, read .append text = .ok list ∧ Arranges delegations true list := by
  refine ⟨lists_entries delegations, ?_⟩
  intro text lists
  refine ⟨lists.tells.read_eq policy, _, lists.tells.read_eq .append, ?_⟩
  exact DelegationList.arranges_placeAll delegations true

theorem read_layout_remarked :
    Lists [⟨20, ⟨[.generic [98]]⟩⟩, ⟨10, ⟨[.generic [35, 10]]⟩⟩]
        " 20 /b\t\r\n# hint\n10 /%23%0A".toList ∧
      read .append " 20 /b\t\r\n# hint\n10 /%23%0A".toList =
        .ok ⟨true, [⟨10, ⟨[.generic [35, 10]]⟩⟩, ⟨20, ⟨[.generic [98]]⟩⟩]⟩ := by
  have parts : " 20 /b\t\r\n# hint\n10 /%23%0A".toList =
      [' '] ++ entry ⟨20, ⟨[.generic [98]]⟩⟩ ++ ['\t'] ++ ['\r', '\n'] ++
        ([] ++ '#' :: " hint".toList ++ ['\n'] ++
          ([] ++ entry ⟨10, ⟨[.generic [35, 10]]⟩⟩ ++ [])) := by cbv
  have lists : Lists [⟨20, ⟨[.generic [98]]⟩⟩, ⟨10, ⟨[.generic [35, 10]]⟩⟩]
      " 20 /b\t\r\n# hint\n10 /%23%0A".toList := by
    rw [parts]
    refine .line (.entry _ (by decide) (by decide)) (by decide) (.inr rfl) ?_
    refine .line (.remark _ (by decide)) (by decide) (.inl rfl) ?_
    exact .last (.entry _ (by decide) (by decide)) (by decide)
  obtain ⟨_, reads⟩ := read_layout .append [⟨20, ⟨[.generic [98]]⟩⟩, ⟨10, ⟨[.generic [35, 10]]⟩⟩]
  exact ⟨lists, (reads _ lists).1⟩

end Delegations.Listing
