import Delegations.ListError

/-! What becomes of a delegation whose name a list already holds. -/
namespace Delegations

inductive ConflictPolicy where
  | replace
  | append
  | skip
deriving DecidableEq, Inhabited

namespace ConflictPolicy

def name : ConflictPolicy → String
  | replace => "replace"
  | append => "append"
  | skip => "skip"

instance : ToString ConflictPolicy := ⟨name⟩

/-- The policy of that name, in either case of ASCII letters. -/
def ofName (text : List Char) : Except UsageError ConflictPolicy :=
  match [replace, append, skip].find? fun policy => policy.name.toList == text.map Char.toLower with
  | some policy => .ok policy
  | none => .error (.unknownPolicy text)

end ConflictPolicy

end Delegations
