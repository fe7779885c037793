import PluginAudit.Proofs.Text.Trim
import PluginAudit.Text.Lines
import Mathlib.Data.List.Forall2

/-!
# How a text is made of lines

`Opens` says how lines are written: each is ended by a line feed, alone or after a carriage return, and the last one
of a text may go without an end. A text is read as these lines (`Opens.read`), up to a carriage return at the end of
each (`ReadAs`).
-/
namespace PluginAudit.Text

/-- A text begins with lines, and `rest` is what follows them. -/
inductive Opens : Text → List Text → Text → Prop
  | done (rest : Text) : Opens rest [] rest
  | ended {line stop t : Text} {lines : List Text} {rest : Text} (free : '\n' ∉ line)
      (stops : stop = ['\n'] ∨ stop = ['\r', '\n']) (more : Opens t lines rest) :
      Opens (line ++ stop ++ t) (line :: lines) rest
  | last {line : Text} (free : '\n' ∉ line) (nonempty : line ≠ []) : Opens line [line] []

/-- A line is read as it is written, or without the carriage return at its end. -/
def ReadAs (written read : Text) : Prop := written = read ∨ written = read ++ ['\r']

theorem readAs_endLine (line : Text) : ReadAs line (endLine line.reverse) := by
  rcases line.eq_nil_or_concat with rfl | ⟨before, c, rfl⟩
  · exact .inl rfl
  · rw [List.concat_eq_append, List.reverse_concat]
    by_cases returned : c = '\r'
    · subst returned
      exact .inr (by simp [endLine])
    · exact .inl (by rw [endLine.eq_2 _ fun _ eq => returned (List.cons.inj eq).1]; simp)

theorem linesAfter_append {line : Text} (free : '\n' ∉ line) (before rest : Text) :
    linesAfter before (line ++ rest) = linesAfter (line.reverse ++ before) rest := by
  induction line generalizing before with
  | nil => rfl
  | cons c line ih =>
    obtain ⟨ne, free⟩ := not_or.mp (List.mem_cons.not.mp free)
    rw [List.cons_append, linesAfter, if_neg (Ne.symm ne), ih free, List.reverse_cons, List.append_assoc]
    rfl

theorem lines_append_lineFeed {line : Text} (free : '\n' ∉ line) (t : Text) :
    lines (line ++ '\n' :: t) = endLine line.reverse :: lines t := by
  rw [lines, linesAfter_append free, List.append_nil, linesAfter, if_pos rfl]
  rfl

theorem lines_of_not_mem {line : Text} (free : '\n' ∉ line) (nonempty : line ≠ []) : lines line = [line] := by
  have whole := linesAfter_append free [] []
  rw [List.append_nil, List.append_nil] at whole
  rw [lines, whole, linesAfter]
  simp [nonempty]

theorem exists_lines_append {line stop : Text} (free : '\n' ∉ line) (stops : stop = ['\n'] ∨ stop = ['\r', '\n'])
    (t : Text) : ∃ read, lines (line ++ stop ++ t) = read :: lines t ∧ ReadAs line read := by
  rcases stops with rfl | rfl
  · refine ⟨endLine line.reverse, ?_, readAs_endLine line⟩
    simpa using lines_append_lineFeed free t
  · have free' : '\n' ∉ line ++ ['\r'] := by simpa using free
    refine ⟨line, ?_, .inl rfl⟩
    simpa [endLine] using lines_append_lineFeed free' t

/-- A text is read as the lines that it begins with, and then as what follows them is. -/
theorem Opens.read {t rest : Text} {written : List Text} (opens : Opens t written rest) :
    ∃ read, t.lines = read ++ rest.lines ∧ List.Forall₂ ReadAs written read := by
  induction opens with
  | done rest => exact ⟨[], rfl, .nil⟩
  | ended free stops _ ih =>
    obtain ⟨read, split, same⟩ := ih
    obtain ⟨first, begins, readFirst⟩ := exists_lines_append free stops _
    exact ⟨first :: read, by rw [begins, split]; rfl, .cons readFirst same⟩
  | @last line free nonempty =>
    exact ⟨[line], lines_of_not_mem free nonempty, .cons (.inl rfl) .nil⟩

/-- Every text is made of lines. -/
theorem exists_opens (t : Text) : ∃ lines, Opens t lines [] := by
  by_cases mem : '\n' ∈ t
  · obtain ⟨line, rest, spelled, free⟩ := List.eq_append_cons_of_mem mem
    have shorter : rest.length < t.length := by
      rw [spelled, List.length_append, List.length_cons]
      omega
    obtain ⟨lines, more⟩ := exists_opens rest
    exact ⟨line :: lines, by simpa [spelled] using Opens.ended free (.inl rfl) more⟩
  · by_cases empty : t = []
    · exact ⟨[], empty ▸ .done []⟩
    · exact ⟨[t], .last mem empty⟩
termination_by t.length

theorem prefix_of_mem_head?_lines {t line : Text} (first : line ∈ t.lines.head?) : line <+: t := by
  by_cases mem : '\n' ∈ t
  · obtain ⟨written, rest, spelled, free⟩ := List.eq_append_cons_of_mem mem
    rw [spelled, lines_append_lineFeed free, List.head?_cons, Option.mem_some_iff] at first
    have inside : line <+: written := by
      rw [← first]
      rcases readAs_endLine written with same | returned
      · exact ⟨[], by rw [List.append_nil]; exact same.symm⟩
      · exact ⟨['\r'], returned.symm⟩
    exact spelled ▸ inside.trans (List.prefix_append _ _)
  · by_cases empty : t = []
    · rw [empty] at first
      simp [lines, linesAfter] at first
    · rw [lines_of_not_mem mem empty, List.head?_cons, Option.mem_some_iff] at first
      exact first ▸ List.prefix_rfl

end PluginAudit.Text
