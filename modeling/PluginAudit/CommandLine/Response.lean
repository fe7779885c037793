import PluginAudit.Audit
import PluginAudit.CommandLine.Request
import PluginAudit.Report.Page

/-!
# Responses

What the program prints and the exit status it ends with. The status is 0 when all is well, 1 when
something is wrong with the project, and 2 when the command line is refused.
-/
namespace PluginAudit.CommandLine

structure Response where
  exit : Nat
  output : Text
deriving DecidableEq

def programName : Text := lit "crosscheck"

def programVersion : Text := lit "v0.3.0"

def Subcommand.suffix : Subcommand → Text
  | check => lit "-check"
  | recipes => lit "-recipes"

def renderer (colored : Bool) : Renderer := if colored then .colored else .plain

def usageLines : List Text :=
  [lit "usage: " ++ programName ++ lit " [COMMAND] ...", lit "Try '--help' for more information."]

/-- Checks a recipe book. One that cannot be read is named in full. -/
def checkRecipes (store : Store) (book : Path) (colored : Bool) : Response :=
  match store.read book with
  | .error failure =>
    ⟨1, printLines [lit "ERROR: " ++ book.spelling ++ lit ": " ++ failure.message]⟩
  | .ok t =>
    let checked := RecipeBook.ofText book.label t
    ⟨if 0 < checked.errors then 1 else 0, checked.page (renderer colored)⟩

def respond (store : Store) : Request → Response
  | .refused => ⟨2, []⟩
  | .help => ⟨0, printLines usageLines⟩
  | .version subcommand =>
    ⟨0, printLines [programName ++ subcommand.elim [] Subcommand.suffix ++ ' ' :: programVersion]⟩
  | .usage => ⟨1, printLines usageLines⟩
  | .check layout colored =>
    let report := audit store layout
    ⟨report.exitCode, report.page (renderer colored)⟩
  | .recipes book colored => checkRecipes store book colored

def run (store : Store) (args : List Text) : Response := respond store (.ofArguments args)

end PluginAudit.CommandLine
