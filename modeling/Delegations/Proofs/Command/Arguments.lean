import Delegations.Command
import Delegations.Proofs.Reading

/-!
The arguments of a command. Main statements: they are read in just one way as items of which only
the last one can be a policy option without a value (`items_eq_iff`). A scan fails with the first
policy among them that is unknown (`scan_eq_error`) and otherwise gathers what they say together
(`scan_eq_ok`), where the last one that asks for a policy decides (`settles_iff`).
-/
namespace Delegations

namespace ConflictPolicy

variable {text : List Char} {policy : ConflictPolicy}

/-- The text names the policy, in either case of its letters. -/
inductive Spells (text : List Char) : ConflictPolicy → Prop
  | replace : text.map Char.toLower = "replace".toList → Spells text .replace
  | append : text.map Char.toLower = "append".toList → Spells text .append
  | skip : text.map Char.toLower = "skip".toList → Spells text .skip

def Unknown (text : List Char) : Prop := ∀ policy, ¬Spells text policy

theorem spells_iff : Spells text policy ↔ policy.name.toList = text.map Char.toLower := by
  constructor
  · rintro (named | named | named) <;> exact named.symm
  · intro named
    cases policy with
    | replace => exact .replace named.symm
    | append => exact .append named.symm
    | skip => exact .skip named.symm

theorem name_toList_inj {left right : ConflictPolicy} :
    left.name.toList = right.name.toList ↔ left = right := by
  cases left <;> cases right <;> decide

theorem ofName_eq_ok_iff : ofName text = .ok policy ↔ Spells text policy := by
  rw [spells_iff]
  unfold ofName
  split
  · rename_i found first
    have named : found.name.toList = text.map Char.toLower := by
      simpa using List.find?_some first
    rw [← named, name_toList_inj, Except.ok.injEq, eq_comm]
  · rename_i missing
    have other := List.find?_eq_none.mp missing policy (by cases policy <;> decide)
    simpa using other

theorem ofName_eq_error_iff {error : UsageError} :
    ofName text = .error error ↔ Unknown text ∧ error = .unknownPolicy text := by
  unfold Unknown
  simp only [← ofName_eq_ok_iff]
  unfold ofName
  split <;> simp [eq_comm]

end ConflictPolicy

namespace Command

/-- An argument by itself, or a policy option together with its value. -/
inductive Item where
  | word (argument : String)
  | policy (value : String)
deriving DecidableEq

def Item.arguments : Item → List String
  | .word argument => [argument]
  | .policy value => ["--policy", value]

/-- The items stand for the arguments. A policy option takes the next argument as its value,
whatever it is, so that only the last argument can be one without a value. -/
def Reads (arguments : List String) (given : List Item) : Prop :=
  given.flatMap Item.arguments = arguments ∧
    ∀ before after, given = before ++ .word "--policy" :: after → after = []

def AllKnown (given : List Item) : Prop :=
  ∀ value, .policy value ∈ given → ∃ policy, ConflictPolicy.Spells value.toList policy

def Item.counts : Item → Bool
  | .word argument => argument ∈ ["--content", "--append", "--skip", "--unsorted"]
  | .policy _ => true

inductive Item.Asks : Item → ConflictPolicy → Prop
  | append : Asks (.word "--append") .append
  | skip : Asks (.word "--skip") .skip
  | named {value : String} {policy : ConflictPolicy} :
      ConflictPolicy.Spells value.toList policy → Asks (.policy value) policy

/-- The last item that asks for a policy decides. If none does, delegations are replaced. -/
inductive Settles (given : List Item) : ConflictPolicy → Prop
  | asked {before after : List Item} {item : Item} {policy : ConflictPolicy} :
      given = before ++ item :: after → item.Asks policy →
        (∀ later ∈ after, ∀ other, ¬later.Asks other) → Settles given policy
  | unasked : (∀ item ∈ given, ∀ policy, ¬item.Asks policy) → Settles given .replace

def items : List String → List Item
  | "--policy" :: value :: rest => .policy value :: items rest
  | argument :: rest => .word argument :: items rest
  | [] => []

def Item.policy? : Item → Option ConflictPolicy
  | .word argument =>
    if argument = "--append" then some .append
    else if argument = "--skip" then some .skip
    else none
  | .policy value => (ConflictPolicy.ofName value.toList).toOption

def Options.heed (options : Options) (given : List Item) : Options where
  type := if .word "--content" ∈ given then TypeNumber.content else options.type
  policy := (given.filterMap Item.policy?).getLast?.getD options.policy
  sorted := options.sorted && decide (.word "--unsorted" ∉ given)

variable {options : Options} {argument value : String} {rest arguments : List String} {item : Item}
  {before after given : List Item} {policy : ConflictPolicy}

theorem items_eq_iff : items arguments = given ↔ Reads arguments given := by
  constructor
  · rintro rfl
    fun_induction items arguments with
    | case1 value rest ih =>
      refine ⟨congrArg ("--policy" :: value :: ·) ih.1, ?_⟩
      intro before after split
      cases before with
      | nil => cases split
      | cons item before => exact ih.2 before after (List.cons_eq_cons.mp split).2
    | case2 argument rest alone ih =>
      refine ⟨congrArg (argument :: ·) ih.1, ?_⟩
      intro before after split
      cases before with
      | nil =>
        obtain ⟨policy, last⟩ := List.cons_eq_cons.mp split
        cases rest with
        | nil => exact last.symm
        | cons value later => exact (alone value later (Item.word.inj policy) rfl).elim
      | cons item before => exact ih.2 before after (List.cons_eq_cons.mp split).2
    | case3 => simp [Reads]
  · rintro ⟨rfl, last⟩
    induction given with
    | nil => rfl
    | cons item rest ih =>
      have later := ih fun before after split => last (item :: before) after (congrArg _ split)
      cases item with
      | policy value => exact congrArg (.policy value :: ·) later
      | word argument =>
        by_cases policy : argument = "--policy"
        · subst policy
          rw [last [] rest rfl]
          rfl
        · rw [List.flatMap_cons, Item.arguments, List.singleton_append, items.eq_2, later]
          exact fun _ _ same _ => policy same

theorem Item.policy?_eq_some_iff : item.policy? = some policy ↔ item.Asks policy := by
  cases item with
  | word argument =>
    rw [policy?]
    constructor
    · intro asked
      split_ifs at asked with append skip
      · cases asked
        exact append ▸ .append
      · cases asked
        exact skip ▸ .skip
    · rintro (_ | _)
      · rfl
      · rfl
  | policy value =>
    have spelled : (Item.policy value).Asks policy ↔ ConflictPolicy.Spells value.toList policy := by
      constructor
      · rintro (_ | _ | spells)
        exact spells
      · exact .named
    rw [spelled, ← ConflictPolicy.ofName_eq_ok_iff, policy?]
    cases ConflictPolicy.ofName value.toList <;> simp [Except.toOption]

theorem Item.policy?_eq_none_iff : item.policy? = none ↔ ∀ policy, ¬item.Asks policy := by
  simp only [← policy?_eq_some_iff, Option.eq_none_iff_forall_ne_some, ne_eq]

theorem filterMap_policy?_eq_nil (silent : ∀ item ∈ given, ∀ policy, ¬item.Asks policy) :
    given.filterMap Item.policy? = [] :=
  List.filterMap_eq_nil_iff.mpr fun item mem => Item.policy?_eq_none_iff.mpr (silent item mem)

theorem settles_iff :
    Settles given policy ↔ (given.filterMap Item.policy?).getLast?.getD .replace = policy := by
  constructor
  · rintro (⟨rfl, asks, silent⟩ | silent)
    · rw [List.filterMap_append, List.filterMap_cons_some (Item.policy?_eq_some_iff.mpr asks),
        filterMap_policy?_eq_nil silent, List.getLast?_append, List.getLast?_singleton,
        Option.some_or, Option.getD_some]
    · rw [filterMap_policy?_eq_nil silent]
      rfl
  · rintro rfl
    rw [List.getLast?_filterMap]
    cases found : given.reverse.findSome? Item.policy? with
    | none =>
      have silent := List.findSome?_eq_none_iff.mp found
      refine .unasked fun item mem => ?_
      exact Item.policy?_eq_none_iff.mp (silent item (List.mem_reverse.mpr mem))
    | some last =>
      obtain ⟨after, item, before, split, asks, silent⟩ := List.findSome?_eq_some_iff.mp found
      have parts : given = before.reverse ++ item :: after.reverse := by
        simpa using congrArg List.reverse split
      refine .asked parts (Item.policy?_eq_some_iff.mp asks) fun later mem => ?_
      exact Item.policy?_eq_none_iff.mp (silent later (List.mem_reverse.mp mem))

theorem Options.heed_append (options : Options) (before after : List Item) :
    options.heed (before ++ after) = (options.heed before).heed after := by
  unfold Options.heed
  congr 1
  · simp only [List.mem_append]
    split_ifs <;> simp_all
  · rw [List.filterMap_append, List.getLast?_append, Option.getD_or]
  · simp [Bool.and_assoc]

theorem Options.heed_singleton (options : Options) (item : Item) : options.heed [item] =
    { type := if item = .word "--content" then TypeNumber.content else options.type
      policy := item.policy?.getD options.policy
      sorted := options.sorted && decide (item ≠ .word "--unsorted") } := by
  unfold Options.heed
  congr 1
  · simp only [List.mem_singleton, eq_comm]
  · cases h : item.policy? <;> simp [h]
  · simp only [List.mem_singleton, ne_eq, eq_comm]

theorem Options.heed_word (options : Options) (argument : String) :
    options.heed [.word argument] =
      if argument = "--content" then { options with type := TypeNumber.content }
      else if argument = "--append" then { options with policy := .append }
      else if argument = "--skip" then { options with policy := .skip }
      else if argument = "--unsorted" then { options with sorted := false }
      else options := by
  rw [heed_singleton]
  simp only [Item.policy?, Item.word.injEq, ne_eq]
  split_ifs <;> simp_all

theorem scan_word (alone : ∀ value later, argument = "--policy" → rest = value :: later → False)
    (options : Options) :
    options.scan (argument :: rest) = (options.heed [.word argument]).scan rest := by
  rw [Options.heed_word, Options.scan.eq_def]
  by_cases policy : argument = "--policy"
  · cases rest with
    | nil =>
      subst policy
      rfl
    | cons value later => exact (alone value later policy rfl).elim
  · simp only [if_neg policy]
    split_ifs <;> rfl

def Options.take (options : Options) : Item → Except UsageError Options
  | .word argument => .ok (options.heed [.word argument])
  | .policy value => (ConflictPolicy.ofName value.toList).map fun policy => { options with policy }

theorem scan_eq_foldlM (options : Options) (arguments : List String) :
    options.scan arguments = (items arguments).foldlM Options.take options := by
  fun_induction items arguments generalizing options with
  | case1 value rest ih =>
    rw [List.foldlM_cons, Options.scan.eq_def, Options.take]
    cases named : ConflictPolicy.ofName value.toList with
    | error error => simp [named, Except.map, bind, Except.bind]
    | ok policy => simp [named, Except.map, bind, Except.bind, ih]
  | case2 argument rest alone ih =>
    rw [scan_word alone, ih, List.foldlM_cons]
    rfl
  | case3 => rfl

theorem allKnown_append : AllKnown (before ++ after) ↔ AllKnown before ∧ AllKnown after := by
  simp only [AllKnown, List.mem_append, or_imp, forall_and]

theorem allKnown_cons : AllKnown (item :: given) ↔ AllKnown [item] ∧ AllKnown given := by
  rw [← List.singleton_append, allKnown_append]

theorem Options.take_known (known : AllKnown [item]) (options : Options) :
    options.take item = .ok (options.heed [item]) := by
  cases item with
  | word argument => rfl
  | policy value =>
    obtain ⟨policy, spells⟩ := known value (List.mem_singleton.mpr rfl)
    have named := ConflictPolicy.ofName_eq_ok_iff.mpr spells
    rw [Options.heed_singleton]
    simp [named, Options.take, Item.policy?, Except.toOption, Except.map]

theorem Options.take_skipped (skipped : ¬ item.counts) (options : Options) :
    options.take item = .ok options := by
  cases item with
  | word argument =>
    simp only [Item.counts, List.mem_cons, List.not_mem_nil, or_false, not_or,
      decide_eq_true_eq] at skipped
    obtain ⟨content, append, skip, unsorted⟩ := skipped
    rw [Options.take, heed_word, if_neg content, if_neg append, if_neg skip, if_neg unsorted]
  | policy value => exact absurd rfl skipped

theorem Options.foldlM_take_eq_ok (known : AllKnown given) (options : Options) :
    given.foldlM Options.take options = .ok (options.heed given) := by
  induction given generalizing options with
  | nil => simp [Options.heed, pure, Except.pure]
  | cons item rest ih =>
    obtain ⟨first, later⟩ := allKnown_cons.mp known
    have joined := heed_append options [item] rest
    rw [List.singleton_append] at joined
    rw [List.foldlM_cons, take_known first, joined]
    exact ih later _

theorem Options.foldlM_take_filter (given : List Item) (options : Options) :
    (given.filter Item.counts).foldlM Options.take options =
      given.foldlM Options.take options := by
  rw [List.foldlM_filter]
  congr 1
  funext options item
  split
  · rfl
  · rename_i skipped
    exact (take_skipped skipped options).symm

theorem scan_congr {left right : List String}
    (same : (items left).filter Item.counts = (items right).filter Item.counts)
    (options : Options) : options.scan left = options.scan right := by
  rw [scan_eq_foldlM, scan_eq_foldlM, ← Options.foldlM_take_filter, same,
    Options.foldlM_take_filter]

theorem scan_eq_ok (known : AllKnown (items arguments)) (options : Options) :
    options.scan arguments = .ok (options.heed (items arguments)) := by
  rw [scan_eq_foldlM, Options.foldlM_take_eq_ok known]

theorem scan_eq_error (first : items arguments = before ++ .policy value :: after)
    (known : AllKnown before) (unknown : ConflictPolicy.Unknown value.toList) (options : Options) :
    options.scan arguments = .error (.unknownPolicy value.toList) := by
  have refused := ConflictPolicy.ofName_eq_error_iff.mpr ⟨unknown, rfl⟩
  rw [scan_eq_foldlM, first, List.foldlM_append, Options.foldlM_take_eq_ok known]
  change (Item.policy value :: after).foldlM Options.take (options.heed before) = _
  rw [List.foldlM_cons, Options.take, refused]
  rfl

theorem allKnown_or_first_unknown (given : List Item) : AllKnown given ∨
    ∃ before value after, given = before ++ .policy value :: after ∧ AllKnown before ∧
      ConflictPolicy.Unknown value.toList := by
  induction given with
  | nil => exact .inl (by simp [AllKnown])
  | cons item rest ih =>
    by_cases first : AllKnown [item]
    · rcases ih with later | ⟨before, value, after, rfl, known, unknown⟩
      · exact .inl (allKnown_cons.mpr ⟨first, later⟩)
      · exact .inr ⟨item :: before, value, after, rfl, allKnown_cons.mpr ⟨first, known⟩, unknown⟩
    · obtain ⟨value, rfl, unknown⟩ : ∃ value, item = .policy value ∧
          ConflictPolicy.Unknown value.toList := by
        simpa [AllKnown, ConflictPolicy.Unknown, eq_comm] using first
      exact .inr ⟨[], value, rest, rfl, by simp [AllKnown], unknown⟩

theorem scan_cases (options : Options) (arguments : List String) :
    (∃ text, options.scan arguments = .error (.unknownPolicy text)) ∨
      options.scan arguments = .ok (options.heed (items arguments)) := by
  rcases allKnown_or_first_unknown (items arguments) with known | ⟨_, value, _, first, known, unknown⟩
  · exact .inr (scan_eq_ok known options)
  · exact .inl ⟨value.toList, scan_eq_error first known unknown options⟩

end Command

end Delegations
