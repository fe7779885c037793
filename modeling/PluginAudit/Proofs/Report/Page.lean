import PluginAudit.Report.Page
import Mathlib.Data.List.Induction

/-!
# Pages of reports

A report is built by raising findings (`findings_ofSteps`). Its page begins with a heading, which says whether an
error was raised (`failed_prefix_page_iff`), and lists every finding once, the errors before the warnings
(`pageLines_eq`, `errorsFirst`).
-/
namespace PluginAudit

namespace Report

/-- One step in the building of a report. -/
inductive Step
  | push (f : Finding)
  | extend (fs : List Finding)
deriving DecidableEq

def Step.raised : Step → List Finding
  | push f => [f]
  | extend fs => fs

def after (r : Report) : Step → Report
  | .push f => r.push f
  | .extend fs => r.extend fs

def ofSteps (steps : List Step) : Report := steps.foldl after empty

theorem findings_after (r : Report) (step : Step) : (r.after step).findings = r.findings ++ step.raised := by
  cases step <;> rfl

theorem findings_ofSteps (steps : List Step) : (ofSteps steps).findings = steps.flatMap Step.raised := by
  induction steps using List.reverseRecOn with
  | nil => rfl
  | append_singleton steps step ih =>
    have last : ofSteps (steps ++ [step]) = (ofSteps steps).after step := List.foldl_append
    rw [last, findings_after, ih, List.flatMap_append, List.flatMap_singleton]

/-- Findings that are listed with the errors first, and each kind in the order in which it was raised. -/
structure ErrorsFirst (raised listed : List Finding) : Prop where
  once : listed.Perm raised
  ordered : listed.Pairwise fun first second => second.isError → first.isError
  errors : listed.filter Finding.isError = raised.filter Finding.isError
  warnings : listed.filter (!·.isError) = raised.filter (!·.isError)

theorem errorsFirst (r : Report) : ErrorsFirst r.findings (r.errors ++ r.warnings) where
  once := List.filter_append_perm _ _
  ordered := by
    refine List.pairwise_append.mpr ⟨?_, ?_, fun first mem _ _ _ => (List.mem_filter.mp mem).2⟩
    · exact List.pairwise_of_forall_mem_list fun first mem _ _ _ => (List.mem_filter.mp mem).2
    · refine List.pairwise_of_forall_mem_list fun _ _ second mem error => ?_
      have warning := (List.mem_filter.mp mem).2
      rw [error] at warning
      cases warning
  errors := by simp [errors, warnings, List.filter_filter]
  warnings := by simp [errors, warnings, List.filter_filter]

/-- The line of a finding, with the bullet of its kind. -/
def line (render : Renderer) (f : Finding) : Text :=
  if f.isError then entry render ['-'] .bullet f else entry render ['~'] .warning f

theorem pageLines_eq (render : Renderer) (r : Report) :
    r.pageLines render = r.heading render :: (r.errors ++ r.warnings).map (line render) := by
  have errors : r.errors.map (line render) = r.errors.map (entry render ['-'] .bullet) :=
    List.map_congr_left fun f mem => if_pos (List.mem_filter.mp mem).2
  have warnings : r.warnings.map (line render) = r.warnings.map (entry render ['~'] .warning) :=
    List.map_congr_left fun f mem => if_neg (by simpa using (List.mem_filter.mp mem).2)
  rw [pageLines, List.map_append, errors, warnings]

theorem isClean_eq_false_iff (r : Report) : r.isClean = false ↔ ∃ f ∈ r.findings, f.isError := by
  simp [isClean, errors, List.filter_eq_nil_iff]

/-- A report is said to have failed exactly if an error was raised. -/
theorem failed_prefix_page_iff {render : Renderer} (r : Report)
    (apart : ∀ rest, ¬ render .failed (lit "Validation failed:") <+: render .passed (lit "Validation passed.") ++ rest) :
    render .failed (lit "Validation failed:") <+: r.page render ↔ ∃ f ∈ r.findings, f.isError := by
  have begins : ∃ rest, r.page render = r.heading render ++ rest := ⟨_, List.append_assoc _ ['\n'] _⟩
  obtain ⟨rest, begins⟩ := begins
  rw [begins, heading, ← isClean_eq_false_iff]
  cases r.isClean with
  | true => exact iff_of_false (apart rest) (by decide)
  | false => exact iff_of_true ⟨rest, rfl⟩ rfl

end Report

theorem RecipeBook.failed_prefix_tally_iff {render : Renderer} (book : RecipeBook)
    (apart : ∀ rest, ¬ render .failed (lit "Validation failed:") <+: render .passed (lit "Validation OK:") ++ rest) :
    render .failed (lit "Validation failed:") <+: book.tally render ↔ ∃ f ∈ book.findings, f.isError := by
  have errors : 0 < book.errors ↔ ∃ f ∈ book.findings, f.isError := List.countP_pos_iff
  rw [← errors, tally]
  by_cases failed : 0 < book.errors
  · refine iff_of_true ?_ failed
    rw [if_pos failed]
    simp only [List.append_assoc]
    exact List.prefix_append _ _
  · refine iff_of_false ?_ failed
    rw [if_neg failed]
    simp only [List.append_assoc]
    exact apart _

end PluginAudit
