import Delegations.Proofs.WireOrder

/-!
Names that begin with another name. Main statement: a name is a prefix of another exactly if its
bytes are a prefix of the other's bytes, and the names that begin with it stand next to each other
in the canonical order, from itself on (`prefixes_are_intervals`).
-/
namespace Delegations

open Std

section
variable {α : Type} [Ord α] [LawfulEqOrd α] {front other whole : List α}

/-- The bytes of some items begin with those of others only if the items do, since encodings that
differ decide a comparison whatever follows them. -/
theorem flatMap_prefix_iff {wire : α → List UInt8} {items others : List α}
    (nonempty : ∀ item, wire item ≠ [])
    (decides : ∀ item ∈ items, ∀ other ∈ others,
      Decides (compare item other) (wire item) (wire other)) :
    items.flatMap wire <+: others.flatMap wire ↔ items <+: others := by
  induction items generalizing others with
  | nil => simp
  | cons item rest ih =>
    cases others with
    | nil => simp [nonempty item]
    | cons other rest' =>
      rw [List.flatMap_cons, List.flatMap_cons, List.cons_prefix_cons]
      have later : rest.flatMap wire <+: rest'.flatMap wire ↔ rest <+: rest' := by
        apply ih
        intro item mem other mem'
        exact decides item (.tail _ mem) other (.tail _ mem')
      constructor
      · rintro ⟨tail, same⟩
        rw [List.append_assoc] at same
        have alike := (decides item (by simp) other (by simp)).eq_of_append_eq same
        obtain rfl := LawfulEqOrd.eq_of_compare alike
        exact ⟨rfl, later.mp ⟨tail, List.append_cancel_left same⟩⟩
      · rintro ⟨rfl, starts⟩
        exact (List.prefix_append_right_inj _).mpr (later.mpr starts)

theorem isLE_compare_of_prefix (starts : front <+: whole) : (compare front whole).isLE := by
  induction front generalizing whole with
  | nil => cases whole <;> rfl
  | cons item rest ih =>
    obtain ⟨tail, rfl, later⟩ := List.cons_prefix_iff.mp starts
    rw [List.compare_cons_cons, ReflOrd.compare_self]
    exact ih later

theorem prefix_of_between [OrientedOrd α] (starts : front <+: whole)
    (above : (compare front other).isLE) (below : (compare other whole).isLE) :
    front <+: other := by
  induction front generalizing other whole with
  | nil => exact List.nil_prefix
  | cons item rest ih =>
    obtain ⟨tail, rfl, later⟩ := List.cons_prefix_iff.mp starts
    cases other with
    | nil => cases above
    | cons item' rest' =>
      rw [List.compare_cons_cons, Ordering.isLE_then_iff_and] at above below
      obtain rfl : item = item' :=
        LawfulEqOrd.eq_of_compare (OrientedCmp.isLE_antisymm above.1 below.1)
      rw [ReflOrd.compare_self] at above below
      have between : rest <+: rest' :=
        ih later (above.2.resolve_left nofun) (below.2.resolve_left nofun)
      exact List.cons_prefix_cons.mpr ⟨rfl, between⟩

end

namespace Name

variable {a b : Name}

theorem isPrefixOf_iff : a.isPrefixOf b ↔ a.components <+: b.components :=
  List.isPrefixOf_iff_prefix

theorem content_prefix_iff (fits : ∀ component ∈ a.components, component.HasLength)
    (fits' : ∀ component ∈ b.components, component.HasLength) :
    a.content <+: b.content ↔ a.isPrefixOf b := by
  unfold content
  rw [isPrefixOf_iff, funext Component.wire_eq]
  apply flatMap_prefix_iff Component.shortest_ne_nil
  intro component mem other mem'
  exact Component.decides_shortest (fits component mem) (fits' other mem')

/-- The prefix test on names is the one on the values that they are written as. A name comes before
all names that begin with it, and whatever comes between it and one of them begins with it too. -/
theorem prefixes_are_intervals (a b c : Name) :
    ((∀ component ∈ a.components, component.HasLength) →
      (∀ component ∈ b.components, component.HasLength) →
        (a.isPrefixOf b ↔ a.content <+: b.content)) ∧
    (a.isPrefixOf b → (compare a b).isLE) ∧
    (a.isPrefixOf b → (compare a c).isLE → (compare c b).isLE → a.isPrefixOf c) := by
  refine ⟨?_, ?_, ?_⟩
  · intro fits fits'
    exact (content_prefix_iff fits fits').symm
  · intro starts
    exact isLE_compare_of_prefix (isPrefixOf_iff.mp starts)
  · intro starts above below
    exact isPrefixOf_iff.mpr (prefix_of_between (isPrefixOf_iff.mp starts) above below)

theorem prefixes_are_intervals_between :
    (⟨[.generic [97]]⟩ : Name).content <+: (⟨[.generic [97], .generic [98]]⟩ : Name).content ∧
      (compare (⟨[.generic [97]]⟩ : Name) ⟨[.generic [97], .generic [98]]⟩).isLE ∧
      (⟨[.generic [97]]⟩ : Name).isPrefixOf ⟨[.generic [97], .generic []]⟩ ∧
      ¬(⟨[.generic [97]]⟩ : Name).content <+: (⟨[.generic [8, 1, 97]]⟩ : Name).content := by
  have fits (values : List (List UInt8)) (short : ∀ value ∈ values, value.length < 2 ^ 64) :
      ∀ component ∈ values.map Component.generic, component.HasLength := by
    simpa [Component.HasLength, Component.generic] using short
  have starts : (⟨[.generic [97]]⟩ : Name).isPrefixOf ⟨[.generic [97], .generic [98]]⟩ := by decide
  obtain ⟨bytes, order, between⟩ := prefixes_are_intervals ⟨[.generic [97]]⟩
    ⟨[.generic [97], .generic [98]]⟩ ⟨[.generic [97], .generic []]⟩
  obtain ⟨inside, _, _⟩ := prefixes_are_intervals ⟨[.generic [97]]⟩ ⟨[.generic [8, 1, 97]]⟩ empty
  have bytesInside := inside (fits [[97]] (by decide)) (fits [[8, 1, 97]] (by decide))
  refine ⟨?_, order starts, between starts (by decide) (by decide), mt bytesInside.mpr (by decide)⟩
  exact (bytes (fits [[97]] (by decide)) (fits [[97], [98]] (by decide))).mp starts

end Name

end Delegations
