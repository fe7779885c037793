import PluginAudit.Card.Problem
import PluginAudit.Command.Problem
import PluginAudit.Contract.Problem
import PluginAudit.Permission.Problem
import PluginAudit.Recipe.Problem
import PluginAudit.Text.Lowercase

namespace PluginAudit

/-- An error fails an audit; a warning is only reported. -/
inductive Severity
  | error
  | warning
deriving DecidableEq

/-- The place of a finding: an artifact, or a record in it, counted from one. -/
inductive Locator
  | artifact (name : Text)
  | record (artifact : Text) (index : Nat)
deriving DecidableEq

def Locator.text : Locator → Text
  | artifact name => name
  | record name index => name ++ '[' :: Text.ofNat index ++ [']']

/-- Why a file could not be read. -/
structure ReadFailure where
  what : Text
  details : Text
deriving DecidableEq

def ReadFailure.message (f : ReadFailure) : Text :=
  if f.details.isEmpty then f.what else f.what ++ lit ": " ++ f.details

/-- What is inconsistent, by the part of the project that it concerns. -/
inductive Problem
  | unreadable (failure : ReadFailure)
  | catalog (problem : Command.Problem)
  | card (problem : Card.Problem)
  | contract (problem : Contract.Problem)
  | permission (problem : Permission.Problem)
  | recipe (problem : Recipe.Problem)
deriving DecidableEq

/-- A problem in words. Of a failure to read, the first part is put in lower case. -/
def Problem.message : Problem → Text
  | unreadable failure => ReadFailure.message { failure with what := failure.what.lowercase }
  | catalog problem => problem.message
  | card problem => problem.message
  | contract problem => problem.message
  | permission problem => problem.message
  | recipe problem => problem.message

structure Finding where
  severity : Severity
  locator : Locator
  problem : Problem
deriving DecidableEq

namespace Finding

def error (locator : Locator) (problem : Problem) : Finding := ⟨.error, locator, problem⟩

def warning (locator : Locator) (problem : Problem) : Finding := ⟨.warning, locator, problem⟩

def isError (f : Finding) : Bool := f.severity = .error

def text (f : Finding) : Text := f.locator.text ++ lit ": " ++ f.problem.message

end Finding
end PluginAudit
