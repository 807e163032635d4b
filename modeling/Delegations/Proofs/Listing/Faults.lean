import Delegations.Proofs.Listing.Reading

/-!
Faulty lines. Main statement: what is wrong with a listing is what is wrong with its first bad line
alone, and a listing without bad lines is told by its relevant ones (`read_stops_at_first_bad_line`).
-/
namespace Delegations.Listing

open DelegationList (insertEach)

variable {policy : ConflictPolicy} {text line : List Char}

/-- The line is to hold a delegation, but by itself it is no listing. -/
def Bad (line : List Char) : Prop :=
  Relevant line ∧ ∃ policy error, read policy line = .error error

theorem read_of_not_mem (whole : '\n' ∉ line) (policy : ConflictPolicy) : read policy line =
    (fun found => insertEach policy found.toList .empty) <$>
      (readLine line).mapError (.line 1 ·) := by
  rw [read_eq, Text.lines_of_not_mem whole]
  split
  · rename_i none
    rw [none]
    rfl
  · rw [List.zipIdx_singleton, findAll_cons]
    cases readLine line with
    | error fault => rfl
    | ok found => cases found <;> rfl

theorem read_of_delegation {delegation : Delegation} (whole : '\n' ∉ line)
    (holds : readLine line = .ok (some delegation)) (policy : ConflictPolicy) :
    read policy line = .ok ⟨true, [delegation]⟩ := by
  rw [read_of_not_mem whole, holds]
  cases policy <;> rfl

theorem read_of_fault {fault : LineFault} (whole : '\n' ∉ line)
    (failed : readLine line = .error fault) (policy : ConflictPolicy) :
    read policy line = .error (.line 1 fault) := by
  rw [read_of_not_mem whole, failed]
  rfl

theorem bad_iff (whole : '\n' ∉ line) : Bad line ↔ ∃ fault, readLine line = .error fault := by
  constructor
  · rintro ⟨_, policy, error, failed⟩
    cases outcome : readLine line with
    | error fault => exact ⟨fault, rfl⟩
    | ok found =>
      rw [read_of_not_mem whole, outcome] at failed
      cases failed
  · rintro ⟨fault, failed⟩
    refine ⟨?_, .replace, _, read_of_fault whole failed .replace⟩
    by_contra idle
    cases failed.symm.trans (readLine_of_not_relevant idle)

theorem not_bad_iff (whole : '\n' ∉ line) : ¬Bad line ↔ ∃ found, readLine line = .ok found := by
  rw [bad_iff whole]
  cases readLine line <;> simp

theorem exists_error_iff (policy : ConflictPolicy) (text : List Char) :
    (∃ error, read policy text = .error error) ↔ ∃ line ∈ Text.lines text, Bad line := by
  constructor
  · rintro ⟨error, failed⟩
    obtain ⟨before, line, after, fault, split, _, failed, _⟩ := read_eq_error_iff.mp failed
    have mem : line ∈ Text.lines text := by simp [split]
    exact ⟨line, mem, (bad_iff (Text.not_mem_of_mem_lines mem)).mpr ⟨fault, failed⟩⟩
  · rintro ⟨line, mem, bad⟩
    cases outcome : read policy text with
    | error error => exact ⟨error, rfl⟩
    | ok list =>
      have found := exists_read_iff.mp ⟨list, outcome⟩ line mem
      exact absurd bad ((not_bad_iff (Text.not_mem_of_mem_lines mem)).mpr found)

theorem read_of_first_bad {before after : List (List Char)}
    (split : Text.lines text = before ++ line :: after) (sound : ∀ earlier ∈ before, ¬Bad earlier)
    (bad : Bad line) : ∃ fault, (∀ other, read other line = .error (.line 1 fault)) ∧
      read policy text = .error (.line (before.length + 1) fault) := by
  have whole : ∀ one ∈ before ++ line :: after, '\n' ∉ one := by
    rw [← split]
    exact fun _ => Text.not_mem_of_mem_lines
  have wholeLine : '\n' ∉ line := whole line (by simp)
  obtain ⟨fault, failed⟩ := (bad_iff wholeLine).mp bad
  refine ⟨fault, read_of_fault wholeLine failed, ?_⟩
  refine read_eq_error_iff.mpr ⟨before, line, after, fault, split, ?_, failed, rfl⟩
  intro earlier mem
  exact (not_bad_iff (whole earlier (List.mem_append_left _ mem))).mp (sound earlier mem)

theorem exists_tells_of_sound (sound : ∀ line ∈ Text.lines text, ¬Bad line) :
    ∃ delegations, Tells (Text.lines text) delegations ∧
      List.Forall₂ (fun line delegation => ∀ other, read other line = .ok ⟨true, [delegation]⟩)
        ((Text.lines text).filter (Relevant ·)) delegations := by
  have found : ∀ line ∈ Text.lines text, ∃ found, readLine line = .ok found := by
    intro line mem
    exact (not_bad_iff (Text.not_mem_of_mem_lines mem)).mp (sound line mem)
  obtain ⟨list, outcome⟩ : ∃ list, read .append text = .ok list := exists_read_iff.mpr found
  obtain ⟨delegations, tells, _⟩ := read_eq_ok_iff.mp outcome
  have whole : ∀ line ∈ (Text.lines text).filter (Relevant ·), '\n' ∉ line := by
    intro line mem
    exact Text.not_mem_of_mem_lines (List.mem_of_mem_filter mem)
  refine ⟨delegations, tells, ((List.forall₂_and_left _ _).mpr ⟨whole, tells⟩).imp ?_⟩
  rintro line delegation ⟨wholeLine, holds⟩ other
  exact read_of_delegation wholeLine holds other

/-- A listing is refused for its first bad line, as that line is refused by itself. If there is none,
the list takes the delegations that the relevant lines hold by themselves, one after the other, and
it does not matter what other lines there are. -/
theorem read_stops_at_first_bad_line (policy : ConflictPolicy) (text : List Char) :
    ((∃ error, read policy text = .error error) ↔ ∃ line ∈ Text.lines text, Bad line) ∧
    (∀ before line after, Text.lines text = before ++ line :: after →
      (∀ earlier ∈ before, ¬Bad earlier) → Bad line →
        ∃ fault, (∀ other, read other line = .error (.line 1 fault)) ∧
          read policy text = .error (.line (before.length + 1) fault)) ∧
    ((∀ line ∈ Text.lines text, ¬Bad line) → ∃ delegations,
      List.Forall₂ (fun line delegation => ∀ other, read other line = .ok ⟨true, [delegation]⟩)
          ((Text.lines text).filter (Relevant ·)) delegations ∧
        read policy text =
          .ok (delegations.foldl (fun list delegation => (list.insert delegation policy).2) .empty) ∧
        ∀ shorter, (Text.lines shorter).filter (Relevant ·) =
          (Text.lines text).filter (Relevant ·) → read policy shorter = read policy text) := by
  refine ⟨exists_error_iff policy text, fun _ _ _ => read_of_first_bad, ?_⟩
  intro sound
  obtain ⟨delegations, tells, alone⟩ := exists_tells_of_sound sound
  refine ⟨delegations, alone, tells.read_eq policy, ?_⟩
  intro shorter same
  have tellsShorter : Tells (Text.lines shorter) delegations := by
    unfold Tells
    rwa [same]
  rw [tellsShorter.read_eq, tells.read_eq]

theorem read_stops_at_first_bad_line_third :
    read .append "# hint\n7 /a\n07\n9\n".toList = .error (.line 3 (.oneWord ['0', '7'])) ∧
      read .skip "7 /a\n\n8 /a".toList = read .skip "7 /a\n# hint\n8 /a\r\n".toList := by
  have remark : ¬Bad "# hint".toList := (not_bad_iff (by decide)).mpr ⟨none, by cbv⟩
  have seventh : ¬Bad "7 /a".toList :=
    (not_bad_iff (by decide)).mpr ⟨some ⟨7, ⟨[.generic [97]]⟩⟩, by cbv⟩
  have eighth : ¬Bad "8 /a".toList :=
    (not_bad_iff (by decide)).mpr ⟨some ⟨8, ⟨[.generic [97]]⟩⟩, by cbv⟩
  have alone : read .append "07".toList = .error (.line 1 (.oneWord ['0', '7'])) := by cbv
  obtain ⟨_, first, _⟩ := read_stops_at_first_bad_line .append "# hint\n7 /a\n07\n9\n".toList
  obtain ⟨fault, same, failed⟩ := first ["# hint".toList, "7 /a".toList] "07".toList ["9".toList]
    (by cbv) (by simpa using ⟨remark, seventh⟩) ⟨by decide, .append, _, alone⟩
  obtain ⟨_, _, sound⟩ := read_stops_at_first_bad_line .skip "7 /a\n# hint\n8 /a\r\n".toList
  have split : Text.lines "7 /a\n# hint\n8 /a\r\n".toList =
      ["7 /a".toList, "# hint".toList, "8 /a".toList] := by cbv
  obtain ⟨_, _, _, shorter⟩ := sound (by rw [split]; simpa using ⟨seventh, remark, eighth⟩)
  cases (same .append).symm.trans alone
  exact ⟨failed, shorter _ (by decide)⟩

end Delegations.Listing
