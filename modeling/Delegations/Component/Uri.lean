import Delegations.Component
import Delegations.Text.Decimal
import Delegations.Text.Percent
import Delegations.Text.Basic

/-!
The text of a name component. A type other than the generic one is written in front of an equals
sign. Three periods mark a value of periods alone, the empty one among them, so that no
component's text is empty or names a directory.
-/
namespace Delegations.Component

def isPeriods (value : List UInt8) : Bool := value.all (· == 0x2E)

def uri (component : Component) : List Char :=
  (if component.isGeneric then [] else Nat.toDigits 10 component.type.toNat ++ ['=']) ++
    (if isPeriods component.value then ['.', '.', '.'] else []) ++
    Text.Percent.escape component.value

/-- The digits in front of the first equals sign and the text after it. An equals sign that does
not follow digits is part of the value. -/
def splitType? (text : List Char) : Option (List Char × List Char) :=
  match text.dropWhile (· != '=') with
  | [] => none
  | _ :: rest =>
    let digits := text.takeWhile (· != '=')
    if digits ≠ [] ∧ digits.all Char.isDigit then some (digits, rest) else none

def readType (digits : List Char) : Except TlvError UInt32 :=
  match Text.Decimal.read UInt32.size digits with
  | .ok n => .ok (UInt32.ofNat n)
  | .error _ => .error (.uri (.componentType digits))

def readValue (escaped : List Char) : Except TlvError (List UInt8) :=
  if escaped ≠ [] ∧ escaped.all (· == '.') then
    if escaped.length < 3 then .error (.uri (.tooFewPeriods escaped))
    else .ok (Text.utf8 (escaped.drop 3))
  else
    match Text.Percent.unescape (Text.utf8 escaped) with
    | some value => .ok value
    | none => .error (.uri (.percentEscape escaped))

def ofUri (text : List Char) : Except TlvError Component := do
  match splitType? text with
  | some (digits, escaped) =>
    let type ← readType digits
    ofParts type (← readValue escaped)
  | none => ofParts TypeNumber.genericComponent (← readValue text)

end Delegations.Component
