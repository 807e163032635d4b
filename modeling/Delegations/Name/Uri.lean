import Delegations.Component.Uri
import Delegations.Name
import Delegations.Text.Basic

/-! The text of a name: its components, each after a slash. -/
namespace Delegations.Name

def uri (name : Name) : List Char :=
  if name.components = [] then ['/']
  else name.components.flatMap fun component => '/' :: component.uri

instance : ToString Name where
  toString name := String.ofList name.uri

def dropScheme : List Char → List Char
  | 'n' :: 'd' :: 'n' :: ':' :: rest => rest
  | text => text

/-- The segments of a text between slashes. White space around it, what follows a question mark
or a number sign, the scheme, and empty segments do not count. -/
def segments (text : List Char) : List (List Char) :=
  let path := (Text.trim text).takeWhile fun c => c != '?' && c != '#'
  ((dropScheme path).splitOn '/').filter (· ≠ [])

def ofUri (text : List Char) : Except TlvError Name := do
  return ⟨← (segments text).mapM Component.ofUri⟩

end Delegations.Name
