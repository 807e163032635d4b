import Delegations.Text.Hex

/-!
Percent escapes, by which a name component's text can hold any byte.
-/
namespace Delegations.Text.Percent

def isUnreserved (byte : UInt8) : Bool :=
  let n := byte.toNat
  (0x30 ≤ n && n ≤ 0x39) || (0x41 ≤ n && n ≤ 0x5A) || (0x61 ≤ n && n ≤ 0x7A) ||
    n == 0x2D || n == 0x2E || n == 0x5F || n == 0x7E

def escapeByte (byte : UInt8) : List Char :=
  if isUnreserved byte then [Char.ofNat byte.toNat]
  else ['%', (Nat.digitChar (byte.toNat / 16)).toUpper, (Nat.digitChar (byte.toNat % 16)).toUpper]

def escape (bytes : List UInt8) : List Char := bytes.flatMap escapeByte

/-- The byte that the two bytes after a percent sign stand for: two hexadecimal digits, or a plus
sign and one. -/
def escaped? (high low : UInt8) : Option UInt8 :=
  match Hex.digit? high, Hex.digit? low with
  | some h, some l => some (UInt8.ofNat (16 * h + l))
  | none, some l => if high = 0x2B then some (UInt8.ofNat l) else none
  | _, none => none

def unescapeFrom (done : List UInt8) : List UInt8 → Option (List UInt8)
  | [] => some done.reverse
  | byte :: rest =>
    if byte = 0x25 then
      match rest with
      | high :: low :: rest =>
        match escaped? high low with
        | some value => unescapeFrom (value :: done) rest
        | none => none
      | _ => none
    else unescapeFrom (byte :: done) rest

def unescape (bytes : List UInt8) : Option (List UInt8) := unescapeFrom [] bytes

end Delegations.Text.Percent
