import Delegations.CommandError
import Delegations.DelegationList.Decoding
import Delegations.Text.Basic
import Delegations.Text.Hex

/-!
Delegation lists as texts: a listing has a line for each delegation, with its preference and its
name, and the encoded list is a row of hexadecimal digits.
-/
namespace Delegations.Listing

/-- The delegation on a line. Blank lines and those that begin with a number sign hold none. -/
def readLine (raw : List Char) : Except LineFault (Option Delegation) :=
  let line := Text.trim raw
  if line = [] ∨ line.head? = some '#' then .ok none
  else
    match Text.splitAtWhiteSpace? line with
    | none => .error (.oneWord line)
    | some (number, rest) => do
      let preference ← (Text.Decimal.read UInt64.size number).mapError (.preference number ·)
      let name ← (Name.ofUri (Text.trim rest)).mapError .name
      return some { preference := UInt64.ofNat preference, name }

def takeLine (policy : ConflictPolicy) (list : DelegationList) (line : List Char × Nat) :
    Except CommandError DelegationList := do
  match ← (readLine line.1).mapError (.line line.2 ·) with
  | none => return list
  | some delegation => return (list.insert delegation policy).2

def read (policy : ConflictPolicy) (text : List Char) : Except CommandError DelegationList :=
  ((Text.lines text).zipIdx 1).foldlM (takeLine policy) .empty

variable (codec : Text.Hex.Codec)

def encode (type : UInt32) (policy : ConflictPolicy) (text : List Char) :
    Except CommandError (List Char) := do
  let list ← read policy text
  return codec.encode (← (list.toWire type).mapError .list)

/-- The list whose encoding a text shows in hexadecimal digits, with white space anywhere. -/
def decode (sorted : Bool) (text : List Char) : Except CommandError DelegationList := do
  let digits := text.filter (!Text.isWhiteSpace ·)
  let wire ← (codec.decode (Text.utf8 digits)).mapError .hex
  (DelegationList.ofWire wire sorted).mapError .format

end Delegations.Listing
