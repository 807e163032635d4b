import Delegations.Listing
import Delegations.Proofs.DelegationList.Repeats
import Delegations.Proofs.Text.Lines

/-!
Listings read line by line. Main statements: a listing without faulty lines stands for what its
delegations give when they are inserted one by one (`read_eq_ok_iff`), and in any other the first
faulty line decides the error (`read_eq_error_iff`).
-/
namespace Delegations.Listing

open DelegationList (insertEach)

variable {policy : ConflictPolicy} {text line : List Char} {list : DelegationList}

def Relevant (line : List Char) : Prop :=
  Text.trim line ≠ [] ∧ (Text.trim line).head? ≠ some '#'

instance : DecidablePred Relevant := fun _ => inferInstanceAs (Decidable (_ ∧ _))

theorem relevant_iff :
    Relevant line ↔ ¬(Text.trim line = [] ∨ (Text.trim line).head? = some '#') :=
  not_or.symm

theorem readLine_of_not_relevant (idle : ¬Relevant line) : readLine line = .ok none :=
  if_pos (not_not.mp (mt relevant_iff.mpr idle))

theorem relevant_iff_isSome {found : Option Delegation} (read : readLine line = .ok found) :
    Relevant line ↔ found.isSome := by
  by_cases relevant : Relevant line
  · refine iff_of_true relevant ?_
    unfold readLine at read
    rw [if_neg (relevant_iff.mp relevant)] at read
    split at read
    · cases read
    · simp only [except_bind_eq_ok] at read
      obtain ⟨_, _, _, _, read⟩ := read
      cases read
      rfl
  · cases read.symm.trans (readLine_of_not_relevant relevant)
    exact iff_of_false relevant (by simp)

/-- What stands on each of some numbered lines, unless one of them is faulty. -/
def findAll (lines : List (List Char × Nat)) : Except CommandError (List (Option Delegation)) :=
  lines.mapM fun line => (readLine line.1).mapError (.line line.2 ·)

theorem findAll_cons (line : List Char × Nat) (rest : List (List Char × Nat)) :
    findAll (line :: rest) = (do
      let found ← (readLine line.1).mapError (.line line.2 ·)
      return found :: (← findAll rest)) :=
  List.mapM_cons

/-- Which lines are read, and which fault comes first, does not depend on what is inserted. -/
theorem foldlM_takeLine (lines : List (List Char × Nat)) (list : DelegationList) :
    lines.foldlM (takeLine policy) list =
      (fun found => insertEach policy found.reduceOption list) <$> findAll lines := by
  induction lines generalizing list with
  | nil => rfl
  | cons line rest ih =>
    rw [List.foldlM_cons, findAll_cons, takeLine]
    cases readLine line.1 with
    | error fault => rfl
    | ok found =>
      cases found with
      | none =>
        refine (ih list).trans ?_
        cases findAll rest <;> rfl
      | some delegation =>
        refine (ih _).trans ?_
        cases findAll rest <;> rfl

theorem findAll_eq_ok_iff {lines : List (List Char)} {number : Nat}
    {found : List (Option Delegation)} :
    findAll (lines.zipIdx number) = .ok found ↔
      List.Forall₂ (readLine · = .ok ·) lines found := by
  have numbered : (lines.zipIdx number).map Prod.fst = lines := List.zipIdx_map_fst ..
  conv_rhs => rw [← numbered, List.forall₂_map_left_iff]
  simp only [findAll, mapM_eq_ok_iff, mapError_eq_ok_iff]

theorem findAll_eq_error_iff {lines : List (List Char)} {number : Nat} {error : CommandError} :
    findAll (lines.zipIdx number) = .error error ↔
      ∃ before line after fault, lines = before ++ line :: after ∧
        (∀ earlier ∈ before, ∃ found, readLine earlier = .ok found) ∧
        readLine line = .error fault ∧ error = .line (number + before.length) fault := by
  have numbered (before : List (List Char)) :
      (∀ earlier ∈ before.zipIdx number, ∃ found,
        (readLine earlier.1).mapError (CommandError.line earlier.2 ·) = .ok found) ↔
          ∀ earlier ∈ before, ∃ found, readLine earlier = .ok found := by
    -- The number only shows in an error.
    conv_rhs => rw [← List.zipIdx_map_fst number before, List.forall_mem_map]
    simp only [mapError_eq_ok_iff]
  rw [findAll, mapM_eq_error_iff]
  constructor
  · rintro ⟨_, _, _, split, sound, failed⟩
    obtain ⟨before, _, rfl, rfl, rest⟩ := List.zipIdx_eq_append_iff.mp split
    obtain ⟨line, after, rfl, rfl, rfl⟩ := List.zipIdx_eq_cons_iff.mp rest.symm
    obtain ⟨fault, stopped, rfl⟩ := mapError_eq_error_iff.mp failed
    exact ⟨before, line, after, fault, rfl, (numbered before).mp sound, stopped, rfl⟩
  · rintro ⟨before, line, after, fault, rfl, sound, failed, rfl⟩
    have split : (before ++ line :: after).zipIdx number = before.zipIdx number ++
        (line, number + before.length) :: after.zipIdx (number + before.length + 1) := by
      rw [List.zipIdx_append, List.zipIdx_cons]
    exact ⟨_, _, _, split, (numbered before).mpr sound,
      mapError_eq_error_iff.mpr ⟨fault, failed, rfl⟩⟩

/-- The delegations stand on the relevant lines, one on each of them. -/
def Tells (lines : List (List Char)) (delegations : List Delegation) : Prop :=
  List.Forall₂ (fun line delegation => readLine line = .ok (some delegation))
    (lines.filter (Relevant ·)) delegations

theorem Tells.cons {lines : List (List Char)} {found : Option Delegation}
    {delegations : List Delegation} (read : readLine line = .ok found)
    (tells : Tells lines delegations) : Tells (line :: lines) (found.toList ++ delegations) := by
  have relevant := relevant_iff_isSome read
  unfold Tells
  cases found with
  | none =>
    rw [List.filter_cons_of_neg (by simpa using relevant)]
    exact tells
  | some delegation =>
    rw [List.filter_cons_of_pos (by simpa using relevant)]
    exact List.Forall₂.cons read tells

theorem tells_reduceOption {lines : List (List Char)} {found : List (Option Delegation)}
    (reads : List.Forall₂ (readLine · = .ok ·) lines found) : Tells lines found.reduceOption := by
  induction reads with
  | nil => exact List.Forall₂.nil
  | @cons _ here _ _ read _ ih => cases here <;> exact ih.cons read

theorem Tells.exists_found {lines : List (List Char)} {delegations : List Delegation}
    (tells : Tells lines delegations) : ∃ found : List (Option Delegation),
      List.Forall₂ (readLine · = .ok ·) lines found ∧ found.reduceOption = delegations := by
  induction lines generalizing delegations with
  | nil =>
    cases tells
    exact ⟨[], .nil, rfl⟩
  | cons line rest ih =>
    unfold Tells at tells
    by_cases relevant : Relevant line
    · rw [List.filter_cons_of_pos (by simpa using relevant)] at tells
      obtain _ | ⟨read, others⟩ := tells
      obtain ⟨found, reads, rfl⟩ := ih others
      exact ⟨some _ :: found, .cons read reads, rfl⟩
    · rw [List.filter_cons_of_neg (by simpa using relevant)] at tells
      obtain ⟨found, reads, rfl⟩ := ih tells
      exact ⟨none :: found, .cons (readLine_of_not_relevant relevant) reads, rfl⟩

theorem read_eq (policy : ConflictPolicy) (text : List Char) : read policy text =
    (fun found => insertEach policy found.reduceOption .empty) <$>
      findAll ((Text.lines text).zipIdx 1) :=
  foldlM_takeLine _ _

theorem read_eq_ok_iff : read policy text = .ok list ↔
    ∃ delegations, Tells (Text.lines text) delegations ∧
      insertEach policy delegations .empty = list := by
  have succeeds : read policy text = .ok list ↔ ∃ found,
      findAll ((Text.lines text).zipIdx 1) = .ok found ∧
        insertEach policy found.reduceOption .empty = list := by
    rw [read_eq]
    cases findAll ((Text.lines text).zipIdx 1) <;> simp [Functor.map, Except.map]
  rw [succeeds]
  constructor
  · rintro ⟨found, reads, rfl⟩
    exact ⟨_, tells_reduceOption (findAll_eq_ok_iff.mp reads), rfl⟩
  · rintro ⟨delegations, tells, rfl⟩
    obtain ⟨found, reads, rfl⟩ := tells.exists_found
    exact ⟨found, findAll_eq_ok_iff.mpr reads, rfl⟩

theorem Tells.read_eq {delegations : List Delegation} (tells : Tells (Text.lines text) delegations)
    (policy : ConflictPolicy) : read policy text =
      .ok (delegations.foldl (fun list delegation => (list.insert delegation policy).2) .empty) := by
  rw [← DelegationList.insertEach_eq_foldl]
  exact read_eq_ok_iff.mpr ⟨delegations, tells, rfl⟩

theorem exists_read_iff : (∃ list, read policy text = .ok list) ↔
    ∀ line ∈ Text.lines text, ∃ found, readLine line = .ok found := by
  have reads : (∃ found, (Text.lines text).mapM readLine = .ok found) ↔
      ∀ line ∈ Text.lines text, ∃ found, readLine line = .ok found := exists_mapM_eq_ok_iff
  simp only [mapM_eq_ok_iff] at reads
  rw [← reads]
  constructor
  · rintro ⟨list, h⟩
    obtain ⟨delegations, tells, _⟩ := read_eq_ok_iff.mp h
    obtain ⟨found, reads, _⟩ := tells.exists_found
    exact ⟨found, reads⟩
  · rintro ⟨found, reads⟩
    exact ⟨_, read_eq_ok_iff.mpr ⟨_, tells_reduceOption reads, rfl⟩⟩

theorem read_eq_error_iff {error : CommandError} : read policy text = .error error ↔
    ∃ before line after fault, Text.lines text = before ++ line :: after ∧
      (∀ earlier ∈ before, ∃ found, readLine earlier = .ok found) ∧
      readLine line = .error fault ∧ error = .line (before.length + 1) fault := by
  have fails : read policy text = .error error ↔
      findAll ((Text.lines text).zipIdx 1) = .error error := by
    rw [read_eq]
    cases findAll ((Text.lines text).zipIdx 1) <;> simp [Functor.map, Except.map]
  rw [fails, findAll_eq_error_iff]
  simp only [Nat.add_comm 1]

end Delegations.Listing
