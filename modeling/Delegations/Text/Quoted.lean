import Delegations.Text.Invisible

/-!
Texts as messages quote them: between quotes, with a backslash before what would end the quotation
and an escape in place of what would not show.
-/
namespace Delegations.Text.Quoted

def escape (quote c : Char) : List Char :=
  if c = '\x00' then ['\\', '0']
  else if c = '\t' then ['\\', 't']
  else if c = '\n' then ['\\', 'n']
  else if c = '\r' then ['\\', 'r']
  else if c = '\\' || c = quote then ['\\', c]
  else if isInvisible c then
    ['\\', 'u', '\x7b'] ++ Nat.toDigits 16 c.toNat ++ ['\x7d']
  else [c]

def text (content : List Char) : String :=
  String.ofList ('"' :: (content.flatMap (escape '"') ++ ['"']))

def character (c : Char) : String :=
  String.ofList ('\'' :: (escape '\'' c ++ ['\'']))

end Delegations.Text.Quoted
