import Delegations.Proofs.Name
import Delegations.Proofs.Order

/-!
The canonical order is the order of the encodings as byte strings. Main statement:
`compare_eq_compare_bytes`, by way of encodings that decide a comparison before it comes to what
follows them.
-/
namespace Delegations

open Std

/-- Whatever follows the two byte strings, the comparison is decided by them, unless they are to
count as equal. -/
def Decides (order : Ordering) (left right : List UInt8) : Prop :=
  ∀ s t : List UInt8, compare (left ++ s) (right ++ t) = order.then (compare s t)

namespace Decides

variable {order later : Ordering} {left right left' right' : List UInt8}

theorem compare_eq (decides : Decides order left right) : compare left right = order := by
  have := decides [] []
  simpa using this

theorem append (first : Decides order left right)
    (second : order = .eq → Decides later left' right') :
    Decides (order.then later) (left ++ left') (right ++ right') := by
  intro s t
  rw [List.append_assoc, List.append_assoc, first]
  cases order with
  | lt => rfl
  | gt => rfl
  | eq => exact second rfl s t

theorem eq_of_append_eq {s t : List UInt8} (decides : Decides order left right)
    (same : left ++ s = right ++ t) : order = .eq := by
  have decided := decides s t
  rw [same, ReflOrd.compare_self] at decided
  exact (Ordering.then_eq_eq.mp decided.symm).1

theorem of_length_eq (same : left.length = right.length) :
    Decides (compare left right) left right := by
  induction left generalizing right with
  | nil =>
    obtain rfl := List.length_eq_zero_iff.mp same.symm
    intro s t
    rfl
  | cons b rest ih =>
    cases right with
    | nil => cases same
    | cons b' rest' =>
      intro s t
      simp only [List.cons_append, List.compare_cons_cons, ih (Nat.succ.inj same) s t,
        Ordering.then_assoc]

theorem refl (bytes : List UInt8) : Decides .eq bytes bytes := by
  have := of_length_eq (Eq.refl bytes.length)
  rwa [ReflOrd.compare_self] at this

end Decides

theorem compare_flatMap {α : Type} [Ord α] {wire : α → List UInt8} {items others : List α}
    (nonempty : ∀ item, wire item ≠ [])
    (decides : ∀ item ∈ items, ∀ other ∈ others,
      Decides (compare item other) (wire item) (wire other)) :
    compare (items.flatMap wire) (others.flatMap wire) = compare items others := by
  induction items generalizing others with
  | nil =>
    cases others with
    | nil => rfl
    | cons other _ =>
      obtain ⟨b, bytes, starts⟩ := List.exists_cons_of_ne_nil (nonempty other)
      simp [starts]
  | cons item rest ih =>
    cases others with
    | nil =>
      obtain ⟨b, bytes, starts⟩ := List.exists_cons_of_ne_nil (nonempty item)
      simp [starts]
    | cons other rest' =>
      have later : compare (rest.flatMap wire) (rest'.flatMap wire) = compare rest rest' := by
        apply ih
        intro item mem other mem'
        exact decides item (.tail _ mem) other (.tail _ mem')
      rw [List.flatMap_cons, List.flatMap_cons, decides item (by simp) other (by simp), later,
        List.compare_cons_cons]

theorem compare_eq_compare_toNat (n m : UInt64) : compare n m = compare n.toNat m.toNat := by
  simp [compare, compareOfLessAndEq, UInt64.lt_iff_toNat_lt, ← UInt64.toNat_inj]

theorem compare_toUInt64 (n m : UInt32) : compare n.toUInt64 m.toUInt64 = compare n m := by
  simp [compare, compareOfLessAndEq, UInt64.lt_iff_toNat_lt, UInt32.lt_iff_toNat_lt,
    ← UInt64.toNat_inj, ← UInt32.toNat_inj]

namespace BigEndian

variable {x y : UInt8} {xs ys : List UInt8}

theorem decode_lt_decode (same : xs.length = ys.length) (less : x < y) :
    decode (x :: xs) < decode (y :: ys) := by
  have below := decode_lt xs
  have step : x.toNat + 1 ≤ y.toNat := UInt8.lt_iff_toNat_lt.mp less
  have scaled := Nat.mul_le_mul_right (256 ^ xs.length) step
  rw [Nat.add_mul, Nat.one_mul] at scaled
  rw [decode_cons, decode_cons, ← same]
  omega

theorem compare_decode (same : xs.length = ys.length) :
    compare (decode xs) (decode ys) = compare xs ys := by
  induction xs generalizing ys with
  | nil =>
    obtain rfl := List.length_eq_zero_iff.mp same.symm
    rfl
  | cons x xs ih =>
    cases ys with
    | nil => cases same
    | cons y ys =>
      replace same := Nat.succ.inj same
      rw [List.compare_cons_cons]
      cases first : compare x y with
      | lt => exact Nat.compare_eq_lt.mpr (decode_lt_decode same (compare_eq_lt.mp first))
      | gt =>
        exact Nat.compare_eq_gt.mpr (decode_lt_decode same.symm (compare_eq_gt.mp first))
      | eq =>
        obtain rfl := LawfulEqOrd.eq_of_compare first
        rw [decode_cons, decode_cons, same, ← ih same]
        simp [Nat.compare_eq_ite_lt]

end BigEndian

namespace VarNumber

/-- The first byte of the shortest form, which tells how many further ones there are. -/
def lead (n : UInt64) : UInt8 :=
  if n < 253 then n.toUInt8 else if n ≤ 0xFFFF then 253 else if n ≤ 0xFFFFFFFF then 254 else 255

def furtherBytes (n : UInt64) : Nat :=
  if n < 253 then 0 else if n ≤ 0xFFFF then 2 else if n ≤ 0xFFFFFFFF then 4 else 8

theorem shortest_eq_cons (n : UInt64) :
    shortest n = lead n :: BigEndian.encode (furtherBytes n) n.toNat := by
  unfold shortest lead furtherBytes
  split_ifs <;> rfl

theorem lead_of_lt {n m : UInt64} (less : n < m) : lead n < lead m ∨
    lead n = lead m ∧ furtherBytes n = furtherBytes m ∧ m.toNat < 256 ^ furtherBytes m := by
  have := m.toNat_lt
  simp only [lead, furtherBytes, UInt64.lt_iff_toNat_lt, UInt64.le_iff_toNat_le, UInt64.reduceToNat,
    UInt8.lt_iff_toNat_lt, ← UInt8.toNat_inj] at less ⊢
  split_ifs <;> simp <;> omega

theorem decides_of_lt {n m : UInt64} (less : n < m) : Decides .lt (shortest n) (shortest m) := by
  rw [shortest_eq_cons, shortest_eq_cons]
  rcases lead_of_lt less with first | ⟨first, extent, fits⟩
  · intro s t
    simp [compare_eq_lt.mpr first]
  · rw [UInt64.lt_iff_toNat_lt] at less
    have width : (BigEndian.encode (furtherBytes m) n.toNat).length =
        (BigEndian.encode (furtherBytes m) m.toNat).length := by
      simp
    have decides := Decides.of_length_eq width
    rw [← BigEndian.compare_decode width, BigEndian.decode_encode, BigEndian.decode_encode,
      Nat.mod_eq_of_lt fits, Nat.mod_eq_of_lt (by omega), Nat.compare_eq_lt.mpr less] at decides
    rw [first, extent]
    exact (Decides.refl [lead m]).append fun _ => decides

theorem decides_shortest (n m : UInt64) : Decides (compare n m) (shortest n) (shortest m) := by
  cases order : compare n m with
  | lt => exact decides_of_lt (compare_eq_lt.mp order)
  | gt =>
    intro s t
    rw [OrientedOrd.eq_swap, decides_of_lt (compare_eq_gt.mp order) t s]
    rfl
  | eq =>
    obtain rfl := LawfulEqOrd.eq_of_compare order
    exact Decides.refl _

end VarNumber

namespace Component

variable {a b : Component}

def HasLength (component : Component) : Prop := component.value.length < 2 ^ 64

theorem decides_shortest (fits : a.HasLength) (fits' : b.HasLength) :
    Decides (compare a b) a.shortest b.shortest := by
  have types := VarNumber.decides_shortest a.type.toUInt64 b.type.toUInt64
  have lengths := VarNumber.decides_shortest a.value.length.toUInt64 b.value.length.toUInt64
  rw [compare_toUInt64] at types
  rw [compare_eq_compare_toNat, VarNumber.toNat_toUInt64 fits, VarNumber.toNat_toUInt64 fits']
    at lengths
  apply types.append
  intro _
  apply lengths.append
  intro same
  exact Decides.of_length_eq (Nat.compare_eq_eq.mp same)

theorem shortest_ne_nil (component : Component) : component.shortest ≠ [] := by
  unfold shortest Element.shortest
  rw [VarNumber.shortest_eq_cons]
  simp

end Component

namespace Name

/-- The encodings of the components one after the other. -/
def content (name : Name) : List UInt8 := name.components.flatMap Component.wire

theorem wire_eq_content (name : Name) :
    name.wire = Element.shortest TypeNumber.name name.content := by
  rw [wire_eq, shortest, content, funext Component.wire_eq]

/-- Names and components are ordered as the byte strings that they are written as, which for names
means the value of the element. So names are alike exactly if they compare as equal. -/
theorem compare_eq_compare_bytes :
    (∀ a b : Name, (∀ component ∈ a.components, component.HasLength) →
      (∀ component ∈ b.components, component.HasLength) →
        compare a b = compare a.content b.content) ∧
    (∀ a b : Component, a.HasLength → b.HasLength → compare a b = compare a.wire b.wire) ∧
    (∀ name : Name, name.wire = Element.shortest TypeNumber.name name.content) ∧
    ∀ a b : Name, (compare a b = .eq ↔ a = b) ∧ compare b a = (compare a b).swap ∧
      ∀ c : Name, (compare a b).isLE → (compare b c).isLE → (compare a c).isLE := by
  refine ⟨?_, ?_, wire_eq_content, ?_⟩
  · intro a b fits fits'
    unfold content
    rw [funext Component.wire_eq]
    symm
    apply compare_flatMap Component.shortest_ne_nil
    intro component mem other mem'
    exact Component.decides_shortest (fits component mem) (fits' other mem')
  · intro a b fits fits'
    rw [Component.wire_eq, Component.wire_eq]
    exact (Component.decides_shortest fits fits').compare_eq.symm
  · intro a b
    exact ⟨LawfulEqOrd.compare_eq_iff_eq, OrientedOrd.eq_swap, fun c => TransOrd.isLE_trans⟩

theorem compare_eq_compare_bytes_longer :
    compare (⟨[.generic (List.replicate 252 255)]⟩ : Name).content
      (⟨[.generic (List.replicate 253 0)]⟩ : Name).content = .lt := by
  have fits (n : Nat) (byte : UInt8) (small : n < 2 ^ 64) :
      ∀ component ∈ (⟨[.generic (List.replicate n byte)]⟩ : Name).components,
        component.HasLength := by
    intro component mem
    rw [List.mem_singleton.mp mem]
    exact List.length_replicate.trans_lt small
  rw [← compare_eq_compare_bytes.1 _ _ (fits 252 255 (by decide)) (fits 253 0 (by decide))]
  decide +kernel

end Name

end Delegations
