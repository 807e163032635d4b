import Delegations.Buffer
import Delegations.VarNumber

/-!
Elements: a type number, a length and a value, which may hold elements in turn. An element keeps
its header as it was read, so that writing it again gives the same bytes.
-/
namespace Delegations

namespace TypeNumber

def implicitSha256Digest : UInt32 := 1
def parametersSha256Digest : UInt32 := 2
def name : UInt32 := 7
def genericComponent : UInt32 := 8
def content : UInt32 := 21
def forwardingHint : UInt32 := 30

/-- Inside a delegation, the number that a forwarding hint has outside of one. -/
def preference : UInt32 := 30
def delegation : UInt32 := 31
def largestComponent : UInt32 := 65535

end TypeNumber

namespace Sink
variable {σ : Type} [Sink σ]

def prependElement (type : UInt32) (value : StateM σ Nat) : StateM σ Nat := do
  let body ← value
  let length ← VarNumber.prepend body.toUInt64
  return body + length + (← VarNumber.prepend type.toUInt64)

end Sink

structure Element where
  type : UInt32
  /-- The bytes of the type number and of the length, not always in their shortest form. -/
  header : List UInt8
  value : List UInt8
deriving DecidableEq

namespace Element

def wire (element : Element) : List UInt8 := element.header ++ element.value

def size (element : Element) : Nat := element.header.length + element.value.length

def buffered (type : UInt32) (value : List UInt8) : Buffer :=
  let headerSize := VarNumber.size type.toUInt64 + VarNumber.size value.length.toUInt64
  ((Sink.prependElement type (Sink.prependBytes value)).run
    (Buffer.withCapacity (headerSize + value.length))).2

/-- The element of this type and value with the shortest header. Type zero can be built, though
no such element can be read. -/
def ofValue (type : UInt32) (value : List UInt8) : Element :=
  let headerSize := VarNumber.size type.toUInt64 + VarNumber.size value.length.toUInt64
  let (header, value) := (buffered type value).bytes.splitAt headerSize
  { type, header, value }

def prepend {σ : Type} [Sink σ] (element : Element) : StateM σ Nat :=
  Sink.prependBytes element.wire

def readNext : EStateM TlvError Cursor Element := do
  let start ← get
  let type ← VarNumber.readType
  let length ← VarNumber.read
  let cursor ← get
  if cursor.size < length.toNat then throw (.lengthExceedsInput length cursor.size)
  let value ← Cursor.take length.toNat
  return { type, header := start.unread.take (cursor.position - start.position), value }

/-- The element at the front of `input` and the number of bytes that it takes. -/
def read (input : List UInt8) : Except TlvError (Element × Nat) :=
  match readNext.run (Cursor.ofBytes input) with
  | .ok element cursor => .ok (element, cursor.position)
  | .error fault _ => .error fault

def decode (input : List UInt8) : Except TlvError Element := do
  let (element, used) ← read input
  if used < input.length then throw (.trailingBytes (input.length - used))
  return element

theorem size_lt_of_readNext {cursor next : Cursor} {element : Element}
    (h : readNext cursor = .ok element next) : next.size < cursor.size := by
  obtain ⟨_, _, hstart, h⟩ := bind_eq_ok.mp h
  cases hstart
  obtain ⟨type, afterType, htype, h⟩ := bind_eq_ok.mp h
  obtain ⟨length, afterLength, hlength, h⟩ := bind_eq_ok.mp h
  have := VarNumber.size_lt_of_readType htype
  have := VarNumber.size_lt_of_read hlength
  obtain ⟨_, _, hcursor, h⟩ := bind_eq_ok.mp h
  cases hcursor
  split at h
  · cases h
  · obtain ⟨_, _, hvalue, h⟩ := bind_eq_ok.mp h
    have := Cursor.size_of_take (adaptExcept_eq_ok.mp hvalue)
    cases h
    omega

/-- Reads elements up to the end, after those in `done`, which is in reverse. -/
def readAll (done : List Element) (cursor : Cursor) : Except TlvError (List Element) :=
  if cursor.size = 0 then .ok done.reverse
  else
    match _ : readNext cursor with
    | .ok element next => readAll (element :: done) next
    | .error fault _ => .error fault
termination_by cursor.size
decreasing_by exact size_lt_of_readNext ‹_›

def children (element : Element) : Except TlvError (List Element) :=
  readAll [] (Cursor.ofBytes element.value)

end Element

end Delegations
