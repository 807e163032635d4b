import Delegations.Proofs.Command.Messages

/-!
What a run of the program does. Main statement: the items that the arguments are read as, the input
and the command decide the answer, and an answer or the words for an error are all that a run prints
(`run_decided_by_items`).
-/
namespace Delegations.Command

open ConflictPolicy (Unknown)

variable {codec : Text.Hex.Codec} {arguments : List String} {given : List Item} {input : ByteArray}
  {options : Options}

theorem answer_of_unknown {before after : List Item} {value : String}
    (reads : Reads arguments.tail given) (first : given = before ++ .policy value :: after)
    (known : AllKnown before) (unknown : Unknown value.toList) :
    answer codec arguments input = .error (.usage (.unknownPolicy value.toList)) := by
  have split := (items_eq_iff.mpr reads).trans first
  simp only [answer, scan_eq_error split known unknown]
  rfl

theorem answer_of_notText (scanned : Options.scan {} arguments.tail = .ok options)
    (notText : String.fromUTF8? input = none) :
    answer codec arguments input = .error .notText := by
  simp only [answer, scanned, notText]
  rfl

theorem answer_of_text {text : String} (scanned : Options.scan {} arguments.tail = .ok options)
    (isText : String.fromUTF8? input = some text) : answer codec arguments input =
      perform codec (arguments.head?.getD "") options text.toList := by
  simp only [answer, scanned, isText]
  rfl

theorem head_ne {command : String} (other : arguments.head? ≠ some command)
    (named : command ≠ "") : arguments.head?.getD "" ≠ command := by
  cases arguments with
  | nil => exact named.symm
  | cons first rest => simpa using other

/-- The first option with an unknown policy fails the run, whatever the command and the input.
Otherwise the input has to be text, and the command is given what the items say together. Items that
do not count make no difference. A run prints either the answer or the words for the error. -/
theorem run_decided_by_items (codec : Text.Hex.Codec) (arguments : List String)
    (input : ByteArray) :
    (∃ given, Reads arguments.tail given) ∧
    (∀ given, Reads arguments.tail given →
      (∀ before value after, given = before ++ .policy value :: after → AllKnown before →
        Unknown value.toList →
        answer codec arguments input = .error (.usage (.unknownPolicy value.toList))) ∧
      (AllKnown given →
        (String.fromUTF8? input = none → answer codec arguments input = .error .notText) ∧
        ∀ text, String.fromUTF8? input = some text →
          (arguments.head? = some "encode" → (∃ policy, Settles given policy) ∧
            ∀ policy, Settles given policy → answer codec arguments input =
              Listing.encode codec (if .word "--content" ∈ given then 21 else 30) policy
                text.toList) ∧
          (arguments.head? = some "decode" → answer codec arguments input =
            DelegationList.text <$>
              Listing.decode codec (decide (.word "--unsorted" ∉ given)) text.toList) ∧
          (arguments.head? ≠ some "encode" → arguments.head? ≠ some "decode" →
            answer codec arguments input =
              .error (.unknownCommand (arguments.head?.getD "")))) ∧
      ∀ others kept, others.head? = arguments.head? → Reads others.tail kept →
        kept.filter Item.counts = given.filter Item.counts →
        run codec others input = run codec arguments input) ∧
    (∀ text, answer codec arguments input = .ok text →
      run codec arguments input =
        { exitCode := 0, output := String.ofList (text ++ ['\n']), errors := "" }) ∧
    (∀ error, answer codec arguments input = .error error → ∃ said, error.ReportedAs said ∧
      run codec arguments input = { exitCode := 1, output := "", errors := said ++ "\n" }) := by
  refine ⟨⟨_, items_eq_iff.mp rfl⟩, ?_, ?_, ?_⟩
  · intro given reads
    have read := items_eq_iff.mpr reads
    refine ⟨fun _ _ _ => answer_of_unknown reads, ?_, ?_⟩
    · intro known
      have scanned : Options.scan {} arguments.tail = .ok (Options.heed {} given) := by
        subst read
        exact scan_eq_ok known {}
      refine ⟨answer_of_notText scanned, ?_⟩
      intro text isText
      rw [answer_of_text scanned isText, perform]
      refine ⟨?_, ?_, ?_⟩
      · intro head
        rw [head, Option.getD_some, if_pos rfl]
        refine ⟨⟨_, settles_iff.mpr rfl⟩, ?_⟩
        intro policy settles
        rw [← settles_iff.mp settles]
        rfl
      · intro head
        rw [head, Option.getD_some, if_neg (by decide), if_pos rfl]
        rfl
      · intro encode decode
        rw [if_neg (head_ne encode (by decide)), if_neg (head_ne decode (by decide))]
    · intro others kept head readsOthers same
      rw [← read, ← items_eq_iff.mpr readsOthers] at same
      simp only [run, answer, head, scan_congr same]
  · intro text answered
    simp only [run, answered]
  · intro error failed
    refine ⟨error.message, reportedAs_of_answer failed, ?_⟩
    simp only [run, failed]

/-- An option that stands for a value is no option, and the last policy of several prevails: the
delegations have one name, and each policy leaves others of them. -/
theorem run_decided_by_items_one_name :
    run Text.Hex.codec ["decode", "--policy", "--skip", "--policy", "merge"] ⟨#[0xff]⟩ =
        { exitCode := 1, output := ""
          errors := "unknown insert conflict resolution \"--skip\"\n" } ∧
      run Text.Hex.codec ["encode", "--append", "--policy", "SKIP", "--content", "--policy"]
        "2 /\n1 /".toUTF8 = { exitCode := 0, output := "15071f051e01020700\n", errors := "" } ∧
      run Text.Hex.codec ["encode", "--skip", "help", "--policy", "Append"] "2 /\n1 /".toUTF8 =
        { exitCode := 0, output := "1e0e1f051e010107001f051e01020700\n", errors := "" } ∧
      run Text.Hex.codec ["encode", "--skip", "--policy", "replace"] "2 /\n1 /".toUTF8 =
        { exitCode := 0, output := "1e071f051e01010700\n", errors := "" } := by
  have encodes (arguments : List String) (value : String) (policy : ConflictPolicy)
      (digits : List Char) (head : arguments.head? = some "encode")
      (only : ∀ other, .policy other ∈ items arguments.tail → other = value)
      (spells : ConflictPolicy.Spells value.toList policy)
      (settles : Settles (items arguments.tail) policy)
      (encoded : Listing.encode Text.Hex.codec
        (if .word "--content" ∈ items arguments.tail then 21 else 30) policy
          "2 /\n1 /".toList = .ok digits) :
      run Text.Hex.codec arguments "2 /\n1 /".toUTF8 =
        { exitCode := 0, output := String.ofList (digits ++ ['\n']), errors := "" } := by
    obtain ⟨-, decided, answered, -⟩ :=
      run_decided_by_items Text.Hex.codec arguments "2 /\n1 /".toUTF8
    have known : AllKnown (items arguments.tail) :=
      fun other among => ⟨policy, only other among ▸ spells⟩
    have asText := ((decided _ (items_eq_iff.mp rfl)).2.1 known).2 "2 /\n1 /" (by decide)
    exact answered digits (((asText.1 head).2 policy settles).trans encoded)
  refine ⟨?_, ?_, ?_, ?_⟩
  · obtain ⟨-, decided, -, failed⟩ := run_decided_by_items Text.Hex.codec
      ["decode", "--policy", "--skip", "--policy", "merge"] ⟨#[0xff]⟩
    have unknown : Unknown "--skip".toList := by
      rintro policy (named | named | named) <;> exact absurd named (by decide)
    have answered := (decided [.policy "--skip", .policy "merge"] (items_eq_iff.mp rfl)).1
      [] "--skip" [.policy "merge"] rfl (by simp [AllKnown]) unknown
    obtain ⟨said, reported, shown⟩ := failed _ answered
    cases reported
    exact shown
  · exact encodes _ "SKIP" .skip "15071f051e01020700".toList rfl (by simp [items])
      (.skip (by decide)) (settles_iff.mpr (by decide)) (by cbv)
  · exact encodes _ "Append" .append "1e0e1f051e010107001f051e01020700".toList rfl
      (by simp [items]) (.append (by decide)) (settles_iff.mpr (by decide)) (by cbv)
  · exact encodes _ "replace" .replace "1e071f051e01010700".toList rfl (by simp [items])
      (.replace (by decide)) (settles_iff.mpr (by decide)) (by cbv)

end Delegations.Command
