import Delegations.Proofs.DelegationList.Frame

/-!
Delegations that are inserted one after the other, some of them with the same name. Main statement:
replacing leaves the last one of each name, and skipping the first one if the list did not hold the
name before (`repeats_resolved`).
-/
namespace Delegations.DelegationList

def insertEach (policy : ConflictPolicy) (delegations : List Delegation) :
    DelegationList → DelegationList :=
  run (delegations.map (Operation.insert · policy))

def names (delegations : List Delegation) : List Name := delegations.map Delegation.name

def LastOfName (delegations : List Delegation) (delegation : Delegation) : Prop :=
  ∃ before after, delegations = before ++ delegation :: after ∧ delegation.name ∉ names after

def FirstOfName (delegations : List Delegation) (delegation : Delegation) : Prop :=
  ∃ before after, delegations = before ++ delegation :: after ∧ delegation.name ∉ names before

def lastOfEach : List Delegation → List Delegation
  | [] => []
  | first :: rest =>
    if first.name ∈ names rest then lastOfEach rest else first :: lastOfEach rest

def firstOfEach (delegations : List Delegation) : List Delegation :=
  lastOfEach delegations.reverse

variable {list : DelegationList} {delegations : List Delegation} {delegation : Delegation}
  {policy : ConflictPolicy}

theorem mem_names {name : Name} :
    name ∈ names delegations ↔ ∃ delegation ∈ delegations, delegation.name = name :=
  List.mem_map

theorem mem_names_cons {name : Name} :
    name ∈ names (delegation :: delegations) ↔ name = delegation.name ∨ name ∈ names delegations :=
  List.mem_cons

theorem mem_names_reverse {name : Name} :
    name ∈ names delegations.reverse ↔ name ∈ names delegations := by
  simp [mem_names]

theorem mem_names_lastOfEach {name : Name} :
    name ∈ names (lastOfEach delegations) ↔ name ∈ names delegations := by
  induction delegations with
  | nil => rfl
  | cons first rest ih =>
    rw [lastOfEach]
    split
    · rename_i later
      rw [ih, mem_names_cons, or_iff_right_of_imp]
      rintro rfl
      exact later
    · rw [mem_names_cons, mem_names_cons, ih]

theorem nodup_names_lastOfEach (delegations : List Delegation) :
    (names (lastOfEach delegations)).Nodup := by
  induction delegations with
  | nil => exact List.nodup_nil
  | cons first rest ih =>
    rw [lastOfEach]
    split
    · exact ih
    · rename_i last
      exact List.nodup_cons.mpr ⟨mt mem_names_lastOfEach.mp last, ih⟩

theorem lastOfName_cons {first : Delegation} : LastOfName (first :: delegations) delegation ↔
    first = delegation ∧ delegation.name ∉ names delegations ∨ LastOfName delegations delegation := by
  refine ⟨?_, ?_⟩
  · rintro ⟨before, after, same, absent⟩
    rcases List.cons_eq_append_iff.mp same with ⟨rfl, whole⟩ | ⟨front, rfl, tail⟩
    · cases whole
      exact .inl ⟨rfl, absent⟩
    · exact .inr ⟨front, after, tail, absent⟩
  · rintro (⟨rfl, absent⟩ | ⟨before, after, same, absent⟩)
    · exact ⟨[], delegations, rfl, absent⟩
    · exact ⟨first :: before, after, congrArg _ same, absent⟩

theorem mem_lastOfEach :
    delegation ∈ lastOfEach delegations ↔ LastOfName delegations delegation := by
  induction delegations with
  | nil => simp [lastOfEach, LastOfName]
  | cons first rest ih =>
    rw [lastOfEach, lastOfName_cons, ← ih]
    split
    · rename_i later
      refine (or_iff_right ?_).symm
      rintro ⟨rfl, absent⟩
      exact absent later
    · rename_i last
      rw [List.mem_cons, eq_comm (a := delegation), and_iff_left_of_imp]
      rintro rfl
      exact last

theorem lastOfName_reverse :
    LastOfName delegations.reverse delegation ↔ FirstOfName delegations delegation := by
  refine ⟨?_, ?_⟩
  · rintro ⟨before, after, same, absent⟩
    refine ⟨after.reverse, before.reverse, ?_, mt mem_names_reverse.mp absent⟩
    rw [← delegations.reverse_reverse, same]
    simp
  · rintro ⟨before, after, rfl, absent⟩
    exact ⟨after.reverse, before.reverse, by simp, mt mem_names_reverse.mp absent⟩

theorem mem_firstOfEach :
    delegation ∈ firstOfEach delegations ↔ FirstOfName delegations delegation :=
  mem_lastOfEach.trans lastOfName_reverse

theorem firstOfEach_concat (delegations : List Delegation) (last : Delegation) :
    firstOfEach (delegations ++ [last]) =
      if last.name ∈ names delegations then firstOfEach delegations
      else last :: firstOfEach delegations := by
  simp only [firstOfEach, List.reverse_concat, lastOfEach, mem_names_reverse]

/-! What inserting the row makes of a list. -/

theorem insertEach_cons (first : Delegation) (rest : List Delegation) (list : DelegationList) :
    insertEach policy (first :: rest) list =
      insertEach policy rest (list.insert first policy).2 := rfl

theorem insertEach_concat (delegations : List Delegation) (last : Delegation)
    (list : DelegationList) : insertEach policy (delegations ++ [last]) list =
      ((insertEach policy delegations list).insert last policy).2 := by
  simp [insertEach, run, Operation.apply]

theorem isSorted_insertEach (delegations : List Delegation) (list : DelegationList) :
    (insertEach policy delegations list).isSorted = list.isSorted := by
  induction delegations generalizing list with
  | nil => rfl
  | cons first rest ih => rw [insertEach_cons, ih, isSorted_insert]

theorem Ordered.insertEach (ordered : list.Ordered) (delegations : List Delegation) :
    (list.insertEach policy delegations).Ordered := by
  induction delegations generalizing list with
  | nil => exact ordered
  | cons first rest ih => exact ih (ordered.insert first policy)

theorem insertEach_eq_foldl (policy : ConflictPolicy) (delegations : List Delegation)
    (list : DelegationList) : insertEach policy delegations list =
      delegations.foldl (fun list delegation => (list.insert delegation policy).2) list :=
  List.foldl_map

theorem ofDelegations_eq_insertEach (delegations : List Delegation) :
    ofDelegations delegations = insertEach .replace delegations empty :=
  (insertEach_eq_foldl .replace delegations empty).symm

theorem mem_names_place {name : Name} : name ∈ names (list.place delegation).items ↔
    name = delegation.name ∨ name ∈ names list.items := by
  rw [names, (place_perm.map _).mem_iff]
  exact List.mem_cons

theorem mem_names_insert {name : Name} : name ∈ names (list.insert delegation policy).2.items ↔
    name = delegation.name ∨ name ∈ names list.items := by
  cases policy with
  | replace =>
    -- What is erased first has the one name that comes back at once.
    refine mem_names_place.trans (or_congr_right' ?_)
    intro other
    simp only [mem_names, eraseName, eraseIf, List.mem_filter]
    grind
  | append => exact mem_names_place
  | skip =>
    rw [insert_skip]
    split
    · rename_i present
      refine (or_iff_right_of_imp ?_).symm
      rintro rfl
      exact mem_names.mpr present
    · exact mem_names_place

theorem mem_names_insertEach {name : Name} :
    name ∈ names (insertEach policy delegations list).items ↔
      name ∈ names list.items ∨ name ∈ names delegations := by
  induction delegations generalizing list with
  | nil => simp [insertEach, run, names]
  | cons first rest ih =>
    rw [insertEach_cons, ih, mem_names_insert, mem_names_cons, or_assoc, or_left_comm]

/-- Each delegation makes those of its name give way that were there before, in the list and in the
row, so that the last of the name stays. -/
theorem insertEach_replace_perm (delegations : List Delegation) (list : DelegationList) :
    (insertEach .replace delegations list).items.Perm
      (list.items.filter (·.name ∉ names delegations) ++ lastOfEach delegations) := by
  -- What the first delegation leaves is the list that the others are inserted into.
  induction delegations generalizing list with
  | nil => simp [insertEach, run, names, lastOfEach]
  | cons first rest ih =>
    have spared : (list.eraseName first.name).2.items.filter (·.name ∉ names rest) =
        list.items.filter (·.name ∉ names (first :: rest)) := by
      simp only [eraseName, eraseIf, List.filter_filter]
      apply List.filter_congr
      intro other _
      rw [Bool.eq_iff_iff]
      simp [mem_names_cons, and_comm]
    have placed : (list.insert first .replace).2.items.Perm
        (first :: (list.eraseName first.name).2.items) := place_perm
    apply (ih _).trans
    apply ((placed.filter _).append_right _).trans
    rw [List.filter_cons, spared, lastOfEach]
    by_cases later : first.name ∈ names rest
    · simp [later]
    · simpa [later] using List.perm_middle.symm

/-- A delegation stays away if its name is there already, from the list or from the row, so that
only the first of the name gets in. -/
theorem insertEach_skip_perm (delegations : List Delegation) (list : DelegationList) :
    (insertEach .skip delegations list).items.Perm
      (list.items ++ (firstOfEach delegations).filter (·.name ∉ names list.items)) := by
  -- From the back, since all that came before the last delegation decides whether it gets in.
  induction delegations using List.reverseRecOn with
  | nil => simp [insertEach, run, firstOfEach, lastOfEach]
  | append_singleton rest last ih =>
    rw [insertEach_concat, insert_skip, firstOfEach_concat]
    simp only [← mem_names, mem_names_insertEach]
    by_cases earlier : last.name ∈ names rest
    · simpa [earlier] using ih
    · by_cases present : last.name ∈ names list.items
      · simpa [earlier, present] using ih
      · have placed : ((insertEach .skip rest list).place last).items.Perm
            (last :: (insertEach .skip rest list).items) := place_perm
        have into := (placed.trans (ih.cons last)).trans List.perm_middle.symm
        simpa [earlier, present] using into

theorem arranges_insertEach {items : List Delegation} (ordered : list.Ordered)
    (sorted : list.isSorted = true) (perm : (insertEach policy delegations list).items.Perm items) :
    Arranges items true (insertEach policy delegations list) := by
  have flag : (insertEach policy delegations list).isSorted = true := by
    rw [isSorted_insertEach, sorted]
  exact ⟨flag, perm, ordered.insertEach delegations flag⟩

theorem insertEach_skip_empty (delegations : List Delegation) :
    insertEach .skip delegations empty = insertEach .replace delegations.reverse empty := by
  have skipped := insertEach_skip_perm delegations empty
  have replaced := insertEach_replace_perm delegations.reverse empty
  have firsts : Arranges (firstOfEach delegations) true (insertEach .skip delegations empty) := by
    simpa [empty, names] using arranges_insertEach ordered_empty rfl skipped
  have lasts : Arranges (lastOfEach delegations.reverse) true
      (insertEach .replace delegations.reverse empty) := by
    simpa [empty] using arranges_insertEach ordered_empty rfl replaced
  exact firsts.unique lasts

theorem distinctNames_insertEach (resolves : policy ≠ .append) (distinct : list.DistinctNames)
    (delegations : List Delegation) : (insertEach policy delegations list).DistinctNames := by
  apply distinctNames_run _ distinct
  intro operation mem
  obtain ⟨delegation, _, rfl⟩ := List.mem_map.mp mem
  exact resolves

/-- In a sorted list, replacing leaves the delegations of other names and the last of each name in the
row. Skipping leaves all that was there and adds the first of each name that was not. -/
theorem repeats_resolved (delegations : List Delegation) :
    (∀ delegation, delegation ∈ lastOfEach delegations ↔ LastOfName delegations delegation) ∧
      (names (lastOfEach delegations)).Nodup ∧
      (∀ delegation, delegation ∈ firstOfEach delegations ↔ FirstOfName delegations delegation) ∧
      (names (firstOfEach delegations)).Nodup ∧
      (∀ list : DelegationList, list.Reachable → list.isSorted →
        Arranges (list.items.filter (·.name ∉ names delegations) ++ lastOfEach delegations) true
            (insertEach .replace delegations list) ∧
          Arranges (list.items ++ (firstOfEach delegations).filter (·.name ∉ names list.items)) true
            (insertEach .skip delegations list)) ∧
      ofDelegations delegations = insertEach .replace delegations empty ∧
      (ofDelegations delegations).DistinctNames ∧
      insertEach .skip delegations empty = insertEach .replace delegations.reverse empty := by
  refine ⟨fun _ => mem_lastOfEach, nodup_names_lastOfEach _, fun _ => mem_firstOfEach,
    nodup_names_lastOfEach _, ?_, ofDelegations_eq_insertEach _, ?_, insertEach_skip_empty _⟩
  · intro list reachable sorted
    have replaced := insertEach_replace_perm delegations list
    have skipped := insertEach_skip_perm delegations list
    exact ⟨arranges_insertEach reachable.ordered sorted replaced,
      arranges_insertEach reachable.ordered sorted skipped⟩
  · rw [ofDelegations_eq_insertEach]
    have none : DistinctNames empty := List.nodup_nil
    exact distinctNames_insertEach (by decide) none delegations

theorem repeats_resolved_twice : Arranges
    [⟨30, ⟨[.generic [97]]⟩⟩, ⟨1, ⟨[.generic [99]]⟩⟩, ⟨7, ⟨[.generic [98]]⟩⟩] true
    (insertEach .replace
      [⟨10, ⟨[.generic [98]]⟩⟩, ⟨1, ⟨[.generic [99]]⟩⟩, ⟨7, ⟨[.generic [98]]⟩⟩]
      ⟨true, [⟨5, ⟨[.generic [98]]⟩⟩, ⟨20, ⟨[.generic [98]]⟩⟩, ⟨30, ⟨[.generic [97]]⟩⟩]⟩) := by
  have reachable : Reachable
      ⟨true, [⟨5, ⟨[.generic [98]]⟩⟩, ⟨20, ⟨[.generic [98]]⟩⟩, ⟨30, ⟨[.generic [97]]⟩⟩]⟩ :=
    ⟨empty, [.insert ⟨20, ⟨[.generic [98]]⟩⟩ .append, .insert ⟨30, ⟨[.generic [97]]⟩⟩ .append,
      .insert ⟨5, ⟨[.generic [98]]⟩⟩ .append], .empty, by cbv⟩
  obtain ⟨_, _, _, _, resolved, _⟩ := repeats_resolved
    [⟨10, ⟨[.generic [98]]⟩⟩, ⟨1, ⟨[.generic [99]]⟩⟩, ⟨7, ⟨[.generic [98]]⟩⟩]
  exact (resolved _ reachable rfl).1

end Delegations.DelegationList
