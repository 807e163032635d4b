import Delegations.Proofs.Text.WhiteSpace
import Delegations.Text.Basic

/-!
The lines of a text. Main statements: a line that has an end stands in front of the lines of what
follows it (`lines_append_lineFeed`), and no line holds a line feed (`not_mem_of_mem_lines`).
-/
namespace Delegations.Text

variable {line text : List Char}

theorem lines_append_lineFeed (whole : '\n' ∉ line) (rest : List Char) :
    lines (line ++ '\n' :: rest) = dropCarriageReturn line :: lines rest := by
  obtain ⟨piece, pieces, split⟩ := List.exists_cons_of_ne_nil (List.splitOn_ne_nil '\n' rest)
  unfold lines
  rw [List.splitOn_append_cons_self_of_not_mem whole, split]
  simp

theorem lines_of_not_mem (whole : '\n' ∉ line) :
    lines line = if line = [] then [] else [line] := by
  simp [lines, List.splitOn_eq_singleton whole]

theorem byLines {motive : List Char → Prop} (last : ∀ line, '\n' ∉ line → motive line)
    (ended : ∀ line rest, '\n' ∉ line → motive rest → motive (line ++ '\n' :: rest))
    (text : List Char) : motive text := by
  by_cases more : '\n' ∈ text
  · obtain ⟨line, rest, split, whole⟩ := List.eq_append_cons_of_mem more
    have shorter : rest.length < text.length := by
      rw [split]
      simp
      omega
    rw [split]
    exact ended line rest whole (byLines last ended rest)
  · exact last text more
termination_by text.length

theorem mem_of_mem_dropCarriageReturn {c : Char} (mem : c ∈ dropCarriageReturn line) :
    c ∈ line := by
  unfold dropCarriageReturn at mem
  split at mem
  · exact List.mem_of_mem_dropLast mem
  · exact mem

theorem not_mem_of_mem_lines (mem : line ∈ lines text) : '\n' ∉ line := by
  induction text using byLines with
  | last only whole =>
    rw [lines_of_not_mem whole] at mem
    split at mem
    · cases mem
    · rwa [List.mem_singleton.mp mem]
  | ended first rest whole ih =>
    rw [lines_append_lineFeed whole] at mem
    rcases List.mem_cons.mp mem with rfl | mem
    · exact mt mem_of_mem_dropCarriageReturn whole
    · exact ih mem

theorem dropCarriageReturn_append (line : List Char) :
    dropCarriageReturn (line ++ ['\r']) = line := by
  simp [dropCarriageReturn]

/-- The carriage return is white space, so that it makes no difference where the end of a line is
cut off. -/
theorem trim_dropCarriageReturn (line : List Char) : trim (dropCarriageReturn line) = trim line := by
  unfold dropCarriageReturn
  split
  · rename_i ends
    have blank : IsBlank ['\r'] := by decide
    rw [← trim_append_right blank line.dropLast, List.dropLast_append_getLast? '\r' ends]
  · rfl

end Delegations.Text
