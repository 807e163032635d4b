import Delegations.Text.Quoted

/-!
Bytes as pairs of hexadecimal digits. The commands are given a codec for them, and the one that the
program runs with writes lower case and reads both.
-/
namespace Delegations.Text.Hex

/-- A writer and a reader of digits. The reader gets the bytes of a text, and where these are no
digits it says why in words. -/
structure Codec where
  encode : List UInt8 → List Char
  decode : List UInt8 → Except String (List UInt8)

def digit? (byte : UInt8) : Option Nat :=
  let n := byte.toNat
  if 0x30 ≤ n && n ≤ 0x39 then some (n - 0x30)
  else if 0x41 ≤ n && n ≤ 0x46 then some (n - 0x41 + 10)
  else if 0x61 ≤ n && n ≤ 0x66 then some (n - 0x61 + 10)
  else none

def encode (bytes : List UInt8) : List Char :=
  bytes.flatMap fun byte => [Nat.digitChar (byte.toNat / 16), Nat.digitChar (byte.toNat % 16)]

inductive Fault where
  | oddLength
  | invalidDigit (byte : UInt8) (position : Nat)
deriving DecidableEq

def Fault.message : Fault → String
  | oddLength => "Odd number of digits"
  | invalidDigit byte position =>
    let shown := Quoted.character (Char.ofNat byte.toNat)
    s!"Invalid character {shown} at position {position}"

/-- Reads pairs from `position` on, after those that gave `done`, which is in reverse. -/
def readPairs (position : Nat) (done : List UInt8) : List UInt8 → Except Fault (List UInt8)
  | high :: low :: rest =>
    match digit? high, digit? low with
    | some h, some l => readPairs (position + 2) (UInt8.ofNat (16 * h + l) :: done) rest
    | none, _ => .error (.invalidDigit high position)
    | some _, none => .error (.invalidDigit low (position + 1))
  | _ => .ok done.reverse

def decode (digits : List UInt8) : Except Fault (List UInt8) :=
  -- The length is judged before any digit.
  if digits.length % 2 = 0 then readPairs 0 [] digits else .error .oddLength

def codec : Codec where
  encode
  decode digits := (decode digits).mapError Fault.message

end Delegations.Text.Hex
