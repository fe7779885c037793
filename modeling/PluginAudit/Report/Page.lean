import PluginAudit.Recipe.Book
import PluginAudit.Report
import PluginAudit.Report.Style

/-!
# Printed reports

A report is printed as a heading and one line for each finding, the errors before the warnings. A
recipe book is printed as one line for each finding and a tally.
-/
namespace PluginAudit

def printLines (lines : List Text) : Text := lines.flatMap (· ++ ['\n'])

namespace Report

def entry (render : Renderer) (bullet : Text) (style : Style) (f : Finding) : Text :=
  ' ' :: render style bullet ++ ' ' :: render .locator f.locator.text ++ lit ": " ++ f.problem.message

def heading (render : Renderer) (r : Report) : Text :=
  if r.isClean then render .passed (lit "Validation passed.")
  else render .failed (lit "Validation failed:")

def pageLines (render : Renderer) (r : Report) : List Text :=
  heading render r ::
    (r.errors.map (entry render ['-'] .bullet) ++ r.warnings.map (entry render ['~'] .warning))

def page (render : Renderer) (r : Report) : Text := printLines (r.pageLines render)

end Report

namespace RecipeBook

def entry (render : Renderer) (f : Finding) : Text :=
  (if f.isError then render .failed (lit "ERROR:") else render .warning (lit "WARN:")) ++
    ' ' :: f.text

/-- The tally of a book: its errors, or its recipes if there are none, and its warnings. -/
def tally (render : Renderer) (book : RecipeBook) : Text :=
  let count (n : Nat) : Text := render .count (Text.ofNat n)
  (if 0 < book.errors then
    render .failed (lit "Validation failed:") ++ ' ' :: count book.errors ++ lit " error(s), "
  else
    render .passed (lit "Validation OK:") ++ ' ' :: count book.count ++ lit " recipe(s), ") ++
    count book.warnings ++ lit " warning(s)"

def page (render : Renderer) (book : RecipeBook) : Text :=
  printLines (book.findings.map (entry render) ++ [book.tally render])

end RecipeBook
end PluginAudit
