import PluginAudit.Proofs.Code.ListedCall
import PluginAudit.Proofs.Code.Pieces
import PluginAudit.Proofs.Code.Strings

/-!
# Arguments of calls

The block of a call is read from inside its parenthesis, and read again from the start to cut it into arguments. The
second reading has one parenthesis less around every place, and otherwise goes the same way
(`Scanner.trace_enclose`), so each argument can be read by itself (`calls_selfContained`).
-/
namespace PluginAudit.Code

namespace Scanner

variable {s : Scanner} {c : Char} {t : Text}

/-- The same state with one parenthesis more around it. -/
def enclose (s : Scanner) : Scanner := { s with depth := s.depth + 1 }

theorem depth_step_closing (outside : s.inString = false) :
    (s.step ')').2.depth = if 0 < s.depth then s.depth - 1 else s.depth := by
  simp only [step, outside, Bool.false_eq_true, if_false]
  split_ifs <;> simp_all

theorem step_enclose (inside : 1 ≤ (s.enclose.step c).2.depth) :
    s.enclose.step c = ((s.step c).1, (s.step c).2.enclose) := by
  obtain ⟨inString, escaped, depth⟩ := s
  cases inString with
  | true =>
    cases escaped with
    | true => rfl
    | false =>
      by_cases backslash : c = '\\'
      · simp [step, enclose, backslash]
      · by_cases quote : c = '"' <;> simp [step, enclose, backslash, quote]
  | false =>
    by_cases closing : c = ')'
    · subst closing
      -- the outermost parenthesis stays open, so this one closes another
      have deep : 0 < depth := by
        rw [depth_step_closing rfl] at inside
        simp only [enclose] at inside
        split_ifs at inside <;> omega
      have deep' : 0 < depth + 1 := by omega
      simp [step, enclose, deep, deep']
    · simp only [step, enclose, closing, if_false, Bool.false_eq_true]
      split_ifs <;> rfl

/-- Inside one parenthesis more, the scanner reads a text as without it, unless it closes that parenthesis. -/
theorem trace_enclose (inside : ∀ step ∈ s.enclose.trace t, 1 ≤ step.2.depth) :
    s.enclose.trace t = (s.trace t).map (fun (token, after) => (token, after.enclose)) := by
  induction t generalizing s with
  | nil => rfl
  | cons c t ih =>
    rw [trace] at inside
    obtain ⟨first, later⟩ := List.forall_mem_cons.mp inside
    have step := step_enclose first
    rw [step] at later
    rw [trace, step, ih later, trace, List.map_cons]

theorem run_enclose (inside : ∀ step ∈ s.enclose.trace t, 1 ≤ step.2.depth) :
    s.enclose.run t = (s.run t).enclose := by
  induction t generalizing s with
  | nil => rfl
  | cons c t ih =>
    rw [trace] at inside
    obtain ⟨first, later⟩ := List.forall_mem_cons.mp inside
    rw [step_enclose first] at later
    rw [run_cons, step_enclose first, ih later, run_cons]

end Scanner

theorem Balanced.enclosed {t : Text} (balanced : Balanced t) :
    ∀ step ∈ Scanner.start.enclose.trace t, 1 ≤ step.2.depth :=
  (balanced.reads 1 (by decide)).2

/-- A balanced text has as many commas of its own inside a parenthesis as outside. -/
theorem Balanced.separators_nested {t : Text} (balanced : Balanced t) :
    (Scanner.nested 1).separators 1 t = Scanner.start.separators 0 t := by
  have one : Scanner.nested 1 = Scanner.start.enclose := rfl
  rw [Scanner.separators, Scanner.separators, one, Scanner.trace_enclose balanced.enclosed, List.countP_map]
  refine List.countP_congr fun step _ => ?_
  have shift : step.2.depth + 1 = 1 ↔ step.2.depth = 0 := by omega
  simp [Scanner.enclose, shift]

/-- No parenthesis of a balanced text closes one outside of it. -/
theorem Balanced.paired {t before after : Text} (balanced : Balanced t) (split : t = before ++ ')' :: after) :
    (Scanner.start.run before).isTopLevel = false := by
  have inside := balanced.enclosed
  rw [split, Scanner.trace_append] at inside
  have there := Scanner.run_enclose fun step mem => inside step (List.mem_append_left _ mem)
  have closes := inside _ (List.mem_append_right _ List.mem_cons_self)
  rw [there] at closes
  cases top : (Scanner.start.run before).isTopLevel with
  | false => rfl
  | true =>
    -- with one parenthesis more around it, it would close that one
    obtain ⟨outside, outermost⟩ : (Scanner.start.run before).inString = false ∧
        (Scanner.start.run before).depth = 0 := by
      simpa [Scanner.isTopLevel] using top
    have closed := Scanner.depth_step_closing (s := (Scanner.start.run before).enclose) outside
    have open? : (Scanner.start.run before).enclose.depth = 1 := by rw [Scanner.enclose, outermost]; rfl
    rw [closed, open?] at closes
    exact absurd closes (by decide)

theorem argument_of_mem_prepend {t : Text} {ts : List Text} (first : Argument t) (each : ∀ u ∈ ts, Argument u) :
    ∀ u ∈ prepend t ts, Argument u := by
  cases ts with
  | nil => simpa [prepend] using first
  | cons u us =>
    obtain ⟨head, tail⟩ := List.forall_mem_cons.mp each
    exact List.forall_mem_cons.mpr ⟨first.append head, tail⟩

theorem Balanced.argument_of_mem_pieces {t : Text} (balanced : Balanced t) :
    ∀ piece ∈ pieces .start t, Argument piece := by
  have extend : ∀ {u rest : Text}, Argument u → (∀ piece ∈ pieces .start rest, Argument piece) →
      ∀ piece ∈ pieces .start (u ++ rest), Argument piece := by
    intro u rest argument each
    rw [pieces_append argument.reads]
    exact argument_of_mem_prepend argument each
  induction balanced with
  | nil => simpa [pieces] using Argument.nil
  | @char c t notQuote notOpening notClosing _ ih =>
    by_cases comma : c = ','
    · subst comma
      have cut : pieces .start (',' :: t) = [] :: pieces .start t := rfl
      rw [cut]
      exact List.forall_mem_cons.mpr ⟨.nil, ih⟩
    · exact extend (u := [c]) (.char notQuote notOpening notClosing comma .nil) ih
  | string proper _ ih => exact extend (.quoted proper) ih
  | @group inner t nested _ _ ih =>
    have whole : '(' :: inner ++ ')' :: t = '(' :: inner ++ [')'] ++ t := by simp
    rw [whole]
    exact extend (.group nested .nil) ih

/-- A text can be read as an argument by itself: it neither begins nor ends with white space, the scanner comes
    out of it as it went in, no closing parenthesis and no comma in it stands outside its strings and
    parentheses, and every literal in it is terminated. -/
structure SelfContained (t : Text) : Prop where
  tight : Tight t
  closed : Scanner.start.run t = .start
  paired : ∀ before after, t = before ++ ')' :: after → (Scanner.start.run before).isTopLevel = false
  single : ∀ step ∈ Scanner.start.trace t, ¬ Scanner.Cuts step
  terminated : ∀ l ∈ literals t, l.terminated

theorem Argument.selfContained_trim {t : Text} (argument : Argument t) : SelfContained t.trim := by
  obtain ⟨s', reads, -, same⟩ := argument.reads.trim rfl
  obtain rfl := same rfl
  obtain ⟨before, after, white, -, eq⟩ := t.exists_blank_trim_blank
  have outside : ((Scanner.nested 0).run t.trim).inString = false := congrArg Scanner.inString reads.1
  exact {
    tight := ⟨fun _ mem => Text.not_isBlank_of_mem_head?_trim mem,
      fun _ mem => Text.not_isBlank_of_mem_getLast?_trim mem⟩
    closed := reads.1
    paired := fun before' after' split => by
      have whole : t = before ++ before' ++ ')' :: (after' ++ after) := by
        rw [eq, split]
        simp
      have paired := argument.balanced.paired whole
      rwa [Scanner.run_append, Scanner.run_blank white rfl] at paired
    single := reads.2
    terminated := (terminated_iff 0 0 _).mpr outside }

theorem Marker.balanced_of_read {marker : Marker} {before after inner : Text} {gap length : Nat}
    (read : marker.read before after = .found (gap, inner) length) : Balanced inner := by
  rw [Marker.read] at read
  split at read
  · split at read
    · split at read
      next => cases read
      next closed =>
        cases read
        exact balanced_of_balanced? closed
    · cases read
  · cases read

theorem balanced_of_mem_blocks {marker : Marker} {source : Text} {block : Block} (mem : block ∈ blocks marker source) :
    Balanced block.text := by
  obtain ⟨found, found?, rfl⟩ := List.mem_map.mp mem
  obtain ⟨before, after, length, -, -, read⟩ := exists_split_of_mem_occurrences found?
  exact marker.balanced_of_read read

/-- Each argument of a call can be read by itself. A call has no arguments if its block is blank, and otherwise one
    more than the commas that stand in it outside strings and inner parentheses. -/
theorem calls_selfContained {marker : Marker} {source : Text} {offset : Nat} {listed : List Text}
    (found : (offset, listed) ∈ calls marker source) :
    ∃ text, ⟨offset, text⟩ ∈ blocks marker source ∧ (∀ argument ∈ listed, SelfContained argument) ∧
      (text.blank → listed = []) ∧
      (text.blank = false → listed.length = (Scanner.nested 1).separators 1 text + 1) := by
  obtain ⟨⟨offset', text⟩, mem, eq⟩ := List.mem_map.mp found
  obtain ⟨rfl, rfl⟩ := Prod.mk.inj eq
  have balanced := balanced_of_mem_blocks mem
  refine ⟨text, mem, fun argument listed => ?_, fun white => if_pos white, fun visible => ?_⟩
  · cases visible : text.blank with
    | true => simp [arguments, visible] at listed
    | false =>
      rw [arguments_of_visible visible] at listed
      obtain ⟨piece, cut, rfl⟩ := List.mem_map.mp listed
      exact (balanced.argument_of_mem_pieces piece cut).selfContained_trim
  · rw [arguments_of_visible visible, List.length_map, length_pieces, balanced.separators_nested]

/-- In `f( a(b, ")") , "," )`, one of the three commas is inside a parenthesis and one inside a string. -/
theorem calls_selfContained_nested :
    (2, [lit "a(b, \")\")", lit "\",\""]) ∈ calls (.call (lit "f")) (lit "f( a(b, \")\") , \",\" )") ∧
    SelfContained (lit "a(b, \")\")") ∧ SelfContained (lit "\",\"") := by
  have found : (2, [lit "a(b, \")\")", lit "\",\""]) ∈
      calls (.call (lit "f")) (lit "f( a(b, \")\") , \",\" )") := by
    decide +kernel
  obtain ⟨text, -, each, -, -⟩ := calls_selfContained found
  exact ⟨found, each _ (by simp), each _ (by simp)⟩

end PluginAudit.Code
