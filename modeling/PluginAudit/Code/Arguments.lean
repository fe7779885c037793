import PluginAudit.Code.Scanner
import PluginAudit.Text.Blank

/-!
# Argument lists

The text between the parentheses of a call is cut at every comma outside strings and inner
parentheses.
-/
namespace PluginAudit.Code

/-- The parts of a text between its top-level commas, read from the given state; at least one. -/
def pieces (s : Scanner) : Text → List Text
  | [] => [[]]
  | c :: t =>
    let (token, s) := s.step c
    if token = .separator ∧ s.depth = 0 then [] :: pieces s t
    else
      match pieces s t with
      | [] => [[c]]
      | piece :: rest => (c :: piece) :: rest

theorem pieces_ne_nil (s : Scanner) (t : Text) : pieces s t ≠ [] := by
  induction t generalizing s with
  | nil => simp [pieces]
  | cons c t ih =>
    simp only [pieces]
    split
    · simp
    · split <;> simp

theorem intercalate_pieces (s : Scanner) (t : Text) : [','].intercalate (pieces s t) = t := by
  induction t generalizing s with
  | nil => rfl
  | cons c t ih =>
    have comma : ∀ {s s' : Scanner}, s.step c = (.separator, s') → c = ',' := by
      intro s s' step
      simp only [Scanner.step] at step
      repeat' split at step
      all_goals simp_all
    simp only [pieces]
    split
    next cut =>
      obtain rfl := comma (Prod.ext cut.1 rfl)
      have rest := ih (s.step ',').2
      cases eq : pieces (s.step ',').2 t with
      | nil => exact absurd eq (pieces_ne_nil _ _)
      | cons piece others =>
        rw [eq] at rest
        rw [← rest]
        simp [List.intercalate]
    next =>
      have rest := ih (s.step c).2
      cases eq : pieces (s.step c).2 t with
      | nil => exact absurd eq (pieces_ne_nil _ _)
      | cons piece others =>
        rw [eq] at rest
        cases others <;> simp_all [List.intercalate]

/-- The arguments that a text lists, each without the white space around it. A blank text lists
    none; otherwise there is one more than there are top-level commas. -/
def arguments (t : Text) : List Text :=
  if t.blank then [] else (pieces .start t).map Text.trim

end PluginAudit.Code
