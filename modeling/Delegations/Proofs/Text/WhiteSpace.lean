import Mathlib
import Delegations.Text.Basic

/-!
White space at the ends of a text. Main statements: cutting it off leaves the same text whether or
not more of it is added (`trim_append_left`, `trim_append_right`), does not reach past a character
that is none (`trim_append_cons`), and leaves a text with solid ends alone (`trim_eq_self_of_ends`).
-/
namespace Delegations.Text

variable {before text after : List Char}

def IsBlank (text : List Char) : Prop := ∀ c ∈ text, isWhiteSpace c

instance : DecidablePred IsBlank := fun _ => decidable_of_iff _ List.all_eq_true

theorem trimStart_of_isBlank (blank : IsBlank text) : trimStart text = [] :=
  List.dropWhile_eq_nil_iff.mpr blank

theorem mem_of_mem_trim {c : Char} (mem : c ∈ trim text) : c ∈ text := by
  have inner := (List.dropWhile_sublist _).mem (List.mem_reverse.mp mem)
  exact (List.dropWhile_sublist _).mem (List.mem_reverse.mp inner)

theorem trim_of_isBlank (blank : IsBlank text) : trim text = [] := by
  rw [trim, trimStart_of_isBlank blank]
  rfl

theorem trimStart_append_left (blank : IsBlank before) (text : List Char) :
    trimStart (before ++ text) = trimStart text :=
  List.dropWhile_append_of_pos blank

theorem trimEnd_append_right (blank : IsBlank after) (text : List Char) :
    trimEnd (text ++ after) = trimEnd text := by
  have blankReverse : IsBlank after.reverse := by
    intro c mem
    exact blank c (List.mem_reverse.mp mem)
  rw [trimEnd, List.reverse_append, trimStart_append_left blankReverse, trimEnd]

theorem trim_append_left (blank : IsBlank before) (text : List Char) :
    trim (before ++ text) = trim text := by
  rw [trim, trimStart_append_left blank, trim]

theorem trim_append_right (blank : IsBlank after) (text : List Char) :
    trim (text ++ after) = trim text := by
  unfold trim
  rw [trimStart, List.dropWhile_append]
  split
  · -- The text is blank too, so that nothing is left of either.
    rename_i whole
    rw [trimStart, List.isEmpty_iff.mp whole, List.dropWhile_eq_nil_iff.mpr blank]
  · exact trimEnd_append_right blank _

theorem trimStart_eq_self (first : ∀ c ∈ text.head?, isWhiteSpace c = false) :
    trimStart text = text := by
  cases text with
  | nil => rfl
  | cons c rest => exact List.dropWhile_cons_of_neg (by simp [first c rfl])

theorem trimStart_append_cons {c : Char} (solid : isWhiteSpace c = false)
    (before after : List Char) : trimStart (before ++ c :: after) = trimStart before ++ c :: after := by
  unfold trimStart
  rw [List.dropWhile_append, List.dropWhile_cons_of_neg (by simp [solid])]
  split
  · rename_i whole
    rw [List.isEmpty_iff.mp whole, List.nil_append]
  · rfl

theorem trimEnd_append_cons {c : Char} (solid : isWhiteSpace c = false)
    (before after : List Char) : trimEnd (before ++ c :: after) = before ++ c :: trimEnd after := by
  have reversed : (before ++ c :: after).reverse = after.reverse ++ c :: before.reverse := by simp
  rw [trimEnd, reversed, trimStart_append_cons solid, trimEnd]
  simp

theorem trim_append_cons {c : Char} (solid : isWhiteSpace c = false) (before after : List Char) :
    trim (before ++ c :: after) = trimStart before ++ c :: trimEnd after := by
  rw [trim, trimStart_append_cons solid, trimEnd_append_cons solid]

theorem trim_cons {c : Char} (solid : isWhiteSpace c = false) (text : List Char) :
    trim (c :: text) = c :: trimEnd text :=
  trim_append_cons solid [] text

theorem trim_eq_self_of_ends (first : ∀ c ∈ text.head?, isWhiteSpace c = false)
    (last : ∀ c ∈ text.getLast?, isWhiteSpace c = false) : trim text = text := by
  rw [trim, trimStart_eq_self first, trimEnd, trimStart_eq_self, List.reverse_reverse]
  rwa [List.head?_reverse]

theorem trim_eq_self (solid : ∀ c ∈ text, isWhiteSpace c = false) : trim text = text := by
  apply trim_eq_self_of_ends
  · intro c mem
    exact solid c (List.mem_of_mem_head? mem)
  · intro c mem
    exact solid c (List.mem_of_mem_getLast? mem)

theorem splitAtWhiteSpace?_append {front : List Char} {c : Char}
    (solid : ∀ d ∈ front, isWhiteSpace d = false) (white : isWhiteSpace c) (rest : List Char) :
    splitAtWhiteSpace? (front ++ c :: rest) = some (front, rest) := by
  have kept : ∀ d ∈ front, (!isWhiteSpace d) = true := by
    intro d mem
    rw [solid d mem]
    rfl
  simp [splitAtWhiteSpace?, List.dropWhile_append_of_pos kept, List.takeWhile_append_of_pos kept,
    white]

end Delegations.Text
