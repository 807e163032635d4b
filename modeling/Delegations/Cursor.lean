/-!
A cursor that reads a byte string from its front, and the big-endian numbers that it reads. A read
that does not fit into the unread bytes fails and leaves the cursor where it was.
-/
namespace Delegations

namespace BigEndian

/-- The `width` lowest base-256 digits of `n`, most significant first. -/
def encode : Nat → Nat → List UInt8
  | 0, _ => []
  | width + 1, n => UInt8.ofNat (n >>> (8 * width)) :: encode width n

def decode (bytes : List UInt8) : Nat :=
  bytes.foldl (fun n b => 256 * n + b.toNat) 0

end BigEndian

section
variable {ε σ α β : Type} {s t : σ}

theorem bind_eq_ok {step : EStateM ε σ α} {next : α → EStateM ε σ β} {b : β} :
    (step >>= next) s = .ok b t ↔ ∃ a u, step s = .ok a u ∧ next a u = .ok b t := by
  simp only [bind, EStateM.bind]
  split
  · rename_i a u run
    constructor
    · intro h
      exact ⟨a, u, run, h⟩
    · rintro ⟨a', u', run', h⟩
      cases run.symm.trans run'
      exact h
  · simp_all

theorem map_eq_ok {step : EStateM ε σ α} {f : α → β} {b : β} :
    (f <$> step) s = .ok b t ↔ ∃ a, step s = .ok a t ∧ f a = b := by
  simp only [Functor.map, EStateM.map]
  split <;> simp_all
  grind

theorem adaptExcept_eq_ok {ε' : Type} {step : EStateM ε σ α} {f : ε → ε'} {a : α} :
    EStateM.adaptExcept f step s = .ok a t ↔ step s = .ok a t := by
  simp only [EStateM.adaptExcept]
  split <;> simp_all

end

structure EndOfInput where
  needed : Nat
  remaining : Nat
deriving DecidableEq

namespace EndOfInput

def message (fault : EndOfInput) : String :=
  let needed := fault.needed
  let remaining := fault.remaining
  s!"unexpected end of input: needed {needed} bytes, {remaining} remaining"

end EndOfInput

/-- The unread rest of a byte string and how much was read before it. -/
structure Cursor where
  position : Nat
  unread : List UInt8
  /-- The number of unread bytes, at hand so that a bound check does not walk them. -/
  size : Nat
  size_eq : size = unread.length

namespace Cursor

def ofBytes (bytes : List UInt8) : Cursor := ⟨0, bytes, bytes.length, rfl⟩

def isEmpty (cursor : Cursor) : Bool := cursor.size == 0

def take (count : Nat) : EStateM EndOfInput Cursor (List UInt8) := fun cursor =>
  if count ≤ cursor.size then
    .ok (cursor.unread.take count)
      { position := cursor.position + count
        unread := cursor.unread.drop count
        size := cursor.size - count
        size_eq := by simp [cursor.size_eq] }
  else .error ⟨count, cursor.size⟩ cursor

def peek : EStateM EndOfInput Cursor UInt8 := fun cursor =>
  match cursor.unread with
  | [] => .error ⟨1, 0⟩ cursor
  | byte :: _ => .ok byte cursor

def number (width : Nat) : EStateM EndOfInput Cursor Nat :=
  BigEndian.decode <$> take width

def u8 : EStateM EndOfInput Cursor UInt8 := UInt8.ofNat <$> number 1

def u16 : EStateM EndOfInput Cursor UInt16 := UInt16.ofNat <$> number 2

def u32 : EStateM EndOfInput Cursor UInt32 := UInt32.ofNat <$> number 4

def u64 : EStateM EndOfInput Cursor UInt64 := UInt64.ofNat <$> number 8

variable {cursor next : Cursor}

theorem size_of_take {count : Nat} {bytes : List UInt8} (h : take count cursor = .ok bytes next) :
    next.size + count = cursor.size := by
  unfold take at h
  split at h
  · cases h
    simp only
    omega
  · cases h

theorem size_of_number {width n : Nat} (h : number width cursor = .ok n next) :
    next.size + width = cursor.size := by
  obtain ⟨_, h, _⟩ := map_eq_ok.mp h
  exact size_of_take h

theorem size_of_u8 {byte : UInt8} (h : u8 cursor = .ok byte next) :
    next.size + 1 = cursor.size := by
  obtain ⟨_, h, _⟩ := map_eq_ok.mp h
  exact size_of_number h

end Cursor

end Delegations
