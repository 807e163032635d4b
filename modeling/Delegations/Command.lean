import Delegations.Listing

/-!
The command line: `encode` turns a listing into digits and `decode` shows the list that digits
encode.
-/
namespace Delegations.Command

structure Options where
  type : UInt32 := TypeNumber.forwardingHint
  policy : ConflictPolicy := .replace
  sorted : Bool := true
deriving DecidableEq

/-- Reads the options from left to right, and a later one prevails. Only `--policy` takes a value,
which may be missing at the end. Other arguments have no effect. -/
def Options.scan (options : Options) : List String → Except UsageError Options
  | [] => .ok options
  | argument :: rest =>
    if argument = "--policy" then
      match rest with
      | [] => .ok options
      | value :: rest =>
        match ConflictPolicy.ofName value.toList with
        | .ok policy => scan { options with policy } rest
        | .error error => .error error
    else if argument = "--content" then scan { options with type := TypeNumber.content } rest
    else if argument = "--append" then scan { options with policy := .append } rest
    else if argument = "--skip" then scan { options with policy := .skip } rest
    else if argument = "--unsorted" then scan { options with sorted := false } rest
    else scan options rest

variable (codec : Text.Hex.Codec)

def perform (command : String) (options : Options) (text : List Char) :
    Except CommandError (List Char) :=
  if command = "encode" then Listing.encode codec options.type options.policy text
  else if command = "decode" then DelegationList.text <$> Listing.decode codec options.sorted text
  else .error (.unknownCommand command)

/-- The answer to the arguments after the program's name. The options are judged before the input
and the input before the command. -/
def answer (arguments : List String) (input : ByteArray) : Except CommandError (List Char) := do
  let options ← (Options.scan {} arguments.tail).mapError .usage
  match String.fromUTF8? input with
  | some text => perform codec (arguments.head?.getD "") options text.toList
  | none => throw .notText

structure Outcome where
  exitCode : UInt32
  output : String
  errors : String
deriving DecidableEq

def run (arguments : List String) (input : ByteArray) : Outcome :=
  match answer codec arguments input with
  | .ok text => { exitCode := 0, output := String.ofList (text ++ ['\n']), errors := "" }
  | .error error => { exitCode := 1, output := "", errors := error.message ++ "\n" }

end Delegations.Command
