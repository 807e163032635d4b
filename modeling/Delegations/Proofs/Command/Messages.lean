import Delegations.Proofs.Command.Arguments
import Delegations.Proofs.Component.Escapes
import Delegations.Proofs.Listing

/-!
What a command can fail with, and the words for it. Main statement: every error that a command
answers with is one of those listed here, and its message is what the list has for it
(`reportedAs_of_answer`).
-/
namespace Delegations

inductive UriFault.ReportedAs : UriFault → String → Prop
  | componentType (digits : List Char) :
      ReportedAs (.componentType digits) ("bad component type " ++ Text.Quoted.text digits)
  | tooFewPeriods (periods : List Char) : ReportedAs (.tooFewPeriods periods)
      ("component " ++ Text.Quoted.text periods ++ " must have at least three periods")
  | percentEscape (escaped : List Char) :
      ReportedAs (.percentEscape escaped) ("bad percent escape in " ++ Text.Quoted.text escaped)

inductive TlvError.ReportedAs : TlvError → String → Prop
  | uri {fault : UriFault} {said : String} :
      fault.ReportedAs said → ReportedAs (.uri fault) ("invalid URI: " ++ said)
  | componentTypeOutOfRange (type : UInt32) : ReportedAs (.componentTypeOutOfRange type)
      ("name component TLV-TYPE " ++ toString type ++ " is out of range")

inductive Text.Decimal.Fault.ReportedAs : Text.Decimal.Fault → String → Prop
  | empty : ReportedAs .empty "cannot parse integer from empty string"
  | invalidDigit : ReportedAs .invalidDigit "invalid digit found in string"
  | tooLarge : ReportedAs .tooLarge "number too large to fit in target type"

inductive LineFault.ReportedAs : LineFault → String → Prop
  | oneWord (line : List Char) : ReportedAs (.oneWord line)
      ("expected `<preference> <name>`, got " ++ Text.Quoted.text line)
  | preference (text : List Char) {fault : Text.Decimal.Fault} {said : String} :
      fault.ReportedAs said → ReportedAs (.preference text fault)
        ("bad preference " ++ Text.Quoted.text text ++ ": " ++ said)
  | name {fault : TlvError} {said : String} :
      fault.ReportedAs said → ReportedAs (.name fault) said

inductive FormatError.ReportedAs : FormatError → String → Prop
  | unexpectedListType (type : UInt32) : ReportedAs (.unexpectedListType type)
      ("unexpected TLV-TYPE " ++ toString type ++ " while decoding delegation list")
  | unexpectedDelegationType (type : UInt32) : ReportedAs (.unexpectedDelegationType type)
      ("unexpected TLV-TYPE " ++ toString type ++ " while decoding Delegation")
  | malformed (fault : TlvError) :
      ReportedAs (.malformed fault) "malformed TLV in delegation list"
  | missingPreference : ReportedAs .missingPreference "missing Preference field in Delegation"
  | invalidPreference (fault : TlvError) :
      ReportedAs (.invalidPreference fault) "invalid Preference field in Delegation"
  | missingName : ReportedAs .missingName "missing Name field in Delegation"
  | invalidName (fault : TlvError) :
      ReportedAs (.invalidName fault) "invalid Name field in Delegation"
  | emptyList : ReportedAs .emptyList "empty delegation list"

/-- The errors of a command. A list that is written can only be empty, since its type is right. -/
inductive CommandError.ReportedAs : CommandError → String → Prop
  | notText : ReportedAs .notText "stream did not contain valid UTF-8"
  | hex (reason : String) : ReportedAs (.hex reason) ("invalid hex input: " ++ reason)
  | line (number : Nat) {fault : LineFault} {said : String} :
      fault.ReportedAs said →
        ReportedAs (.line number fault) ("line " ++ toString number ++ ": " ++ said)
  | emptyList : ReportedAs (.list (.format .emptyList)) "empty delegation list"
  | format {error : FormatError} {said : String} :
      error.ReportedAs said → ReportedAs (.format error) said
  | unknownPolicy (text : List Char) : ReportedAs (.usage (.unknownPolicy text))
      ("unknown insert conflict resolution " ++ Text.Quoted.text text)
  | unknownCommand (name : String) :
      ReportedAs (.unknownCommand name) ("unknown command: " ++ name)

theorem UriFault.reportedAs_message (fault : UriFault) : fault.ReportedAs fault.message := by
  cases fault <;> constructor

theorem Text.Decimal.Fault.reportedAs_message (fault : Text.Decimal.Fault) :
    fault.ReportedAs fault.message := by
  cases fault <;> constructor

theorem FormatError.reportedAs_message (error : FormatError) : error.ReportedAs error.message := by
  cases error <;> constructor

theorem Component.reportedAs_of_ofParts {type : UInt32} {value : List UInt8} {error : TlvError}
    (failed : ofParts type value = .error error) : error.ReportedAs error.message := by
  unfold ofParts at failed
  split at failed
  · cases failed
  · cases failed
    exact .componentTypeOutOfRange type

theorem Component.exists_fault_of_readValue {escaped : List Char} {error : TlvError}
    (failed : readValue escaped = .error error) : ∃ fault, error = .uri fault := by
  unfold readValue at failed
  split at failed
  · split at failed
    · cases failed
      exact ⟨_, rfl⟩
    · cases failed
  · split at failed
    · cases failed
    · cases failed
      exact ⟨_, rfl⟩

theorem Component.reportedAs_of_ofUri {text : List Char} {error : TlvError}
    (failed : ofUri text = .error error) : error.ReportedAs error.message := by
  obtain ⟨type, faulty, same⟩ := ofUri_eq text
  rw [same] at failed
  cases type with
  | error stop =>
    cases failed
    obtain ⟨fault, rfl⟩ := faulty _ rfl
    exact .uri fault.reportedAs_message
  | ok number =>
    change (readValue (valuePart text) >>= ofParts number) = .error error at failed
    cases read : readValue (valuePart text) with
    | error stop =>
      rw [read] at failed
      cases failed
      obtain ⟨fault, rfl⟩ := exists_fault_of_readValue read
      exact .uri fault.reportedAs_message
    | ok value =>
      rw [read] at failed
      exact reportedAs_of_ofParts failed

theorem Name.reportedAs_of_ofUri {text : List Char} {error : TlvError}
    (failed : ofUri text = .error error) : error.ReportedAs error.message := by
  unfold ofUri at failed
  cases parsed : (segments text).mapM Component.ofUri with
  | error stop =>
    rw [parsed] at failed
    cases failed
    obtain ⟨_, _, _, _, _, stopped⟩ := mapM_eq_error_iff.mp parsed
    exact Component.reportedAs_of_ofUri stopped
  | ok components =>
    rw [parsed] at failed
    cases failed

namespace Listing

variable {codec : Text.Hex.Codec} {error : CommandError}

theorem reportedAs_of_readLine {line : List Char} {fault : LineFault}
    (failed : readLine line = .error fault) : fault.ReportedAs fault.message := by
  unfold readLine at failed
  dsimp only at failed
  split at failed
  · cases failed
  · split at failed
    · cases failed
      exact .oneWord _
    · rename_i number rest _
      cases counted : Text.Decimal.read UInt64.size number with
      | error stop =>
        rw [counted] at failed
        cases failed
        exact .preference number stop.reportedAs_message
      | ok preference =>
        rw [counted] at failed
        cases named : Name.ofUri (Text.trim rest) with
        | error stop =>
          rw [named] at failed
          cases failed
          exact .name (Name.reportedAs_of_ofUri named)
        | ok name =>
          rw [named] at failed
          cases failed

theorem reportedAs_of_encode {type : UInt32} (accepted : DelegationList.isListType type)
    {policy : ConflictPolicy} {text : List Char}
    (failed : encode codec type policy text = .error error) : error.ReportedAs error.message := by
  cases parsed : read policy text with
  | error stop =>
    unfold encode at failed
    rw [parsed] at failed
    cases failed
    obtain ⟨_, _, _, fault, _, _, stopped, rfl⟩ := read_eq_error_iff.mp parsed
    exact .line _ (reportedAs_of_readLine stopped)
  | ok list =>
    rw [encode_of_read parsed] at failed
    by_cases empty : list.items = []
    · rw [DelegationList.toWire_empty empty accepted] at failed
      cases failed
      exact .emptyList
    · rw [DelegationList.toWire_eq empty accepted] at failed
      cases failed

theorem reportedAs_of_decode {sorted : Bool} {text : List Char}
    (failed : decode codec sorted text = .error error) : error.ReportedAs error.message := by
  unfold decode at failed
  dsimp only at failed
  cases shown : codec.decode (Text.utf8 (text.filter (!Text.isWhiteSpace ·))) with
  | error reason =>
    rw [shown] at failed
    cases failed
    exact .hex reason
  | ok wire =>
    rw [shown] at failed
    obtain ⟨stop, _, rfl⟩ := mapError_eq_error_iff.mp failed
    exact .format stop.reportedAs_message

end Listing

namespace Command

theorem isListType_heed (given : List Item) :
    DelegationList.isListType (Options.heed {} given).type := by
  unfold Options.heed
  split_ifs <;> rfl

theorem reportedAs_of_perform {codec : Text.Hex.Codec} {command : String} {options : Options}
    {text : List Char} {error : CommandError} (accepted : DelegationList.isListType options.type)
    (failed : perform codec command options text = .error error) :
    error.ReportedAs error.message := by
  unfold perform at failed
  split_ifs at failed
  · exact Listing.reportedAs_of_encode accepted failed
  · cases decoded : Listing.decode codec options.sorted text with
    | error stop =>
      rw [decoded] at failed
      cases failed
      exact Listing.reportedAs_of_decode decoded
    | ok list =>
      rw [decoded] at failed
      cases failed
  · cases failed
    exact .unknownCommand command

theorem reportedAs_of_answer {codec : Text.Hex.Codec} {arguments : List String} {input : ByteArray}
    {error : CommandError} (failed : answer codec arguments input = .error error) :
    error.ReportedAs error.message := by
  unfold answer at failed
  rcases scan_cases {} arguments.tail with ⟨text, scanned⟩ | scanned
  · rw [scanned] at failed
    cases failed
    exact .unknownPolicy text
  · rw [scanned] at failed
    cases isText : String.fromUTF8? input with
    | none =>
      rw [isText] at failed
      cases failed
      exact .notText
    | some text =>
      rw [isText] at failed
      exact reportedAs_of_perform (isListType_heed _) failed

end Command

end Delegations
