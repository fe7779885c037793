import PluginAudit.Code.Call
import PluginAudit.Command.Record
import PluginAudit.Finding
import PluginAudit.NameSet
import PluginAudit.Registry

/-!
# Command catalogs

Each declaration is checked by itself and against the names that the declarations before it have
claimed. One whose fields can be read becomes a record, whatever else is wrong with it, and its
permission is required even if its other fields cannot be read.
-/
namespace PluginAudit

namespace Command

/-- How a catalog is written: its name in findings, the type whose creation declares a command, the number of
    arguments of a declaration, and what the constant of a category begins with. -/
structure Shape where
  artifact : Text
  creation : Text
  arity : Nat
  categoryStart : Text
deriving DecidableEq

def Shape.standard : Shape :=
  ⟨lit "CommandCatalog", lit "CommandInfo", Command.arity, lit "CommandCategory."⟩

def startsWithSlash (t : Text) : Bool := t.head? == some '/'

/-- Whether a text is an identifier that may follow the qualifying type of a category. -/
def isConstant : Text → Bool
  | [] => false
  | c :: t => (isLetter c || c == '_') && t.all fun c => isAlphanumeric c || c == '_'

def Shape.isCategory (shape : Shape) (token : Text) : Bool :=
  (Text.after? shape.categoryStart token).any isConstant

def escapeWarnings (field : Text) (literals : List Code.Literal) : List (Severity × Problem) :=
  (literals.flatMap Code.Literal.unrecognized).map fun c => (.warning, .unrecognizedEscape field c)

namespace Declaration

def escapeProblems (d : Declaration) : List (Severity × Problem) :=
  escapeWarnings (lit "command") (Code.single? d.command).toList ++
  escapeWarnings (lit "displayName") (Code.single? d.displayName).toList ++
  escapeWarnings (lit "shortDesc") (Code.single? d.shortDesc).toList ++
  escapeWarnings (lit "fullDesc") (Code.single? d.fullDesc).toList ++
  escapeWarnings (lit "aliases") (Code.literals d.aliases) ++
  escapeWarnings (lit "examples") (Code.literals d.examples) ++
  escapeWarnings (lit "permission") (Code.single? d.permission).toList

/-- What is wrong with the command, given the owners of the names claimed before. -/
def commandProblems (owners : Registry) (d : Declaration) : List Problem :=
  match d.name? with
  | none => [.unreadableCommand]
  | some command =>
    (if startsWithSlash command then [] else [.commandStart command]) ++
    (owners.owner? command).toList.map (.duplicateCommand command)

def textProblems (field argument : Text) : List Problem :=
  if (nonblank? argument).isSome then [] else [.emptyField field]

def categoryProblems (shape : Shape) (d : Declaration) : List Problem :=
  if shape.isCategory d.category then [] else [.missingCategory d.category]

def permissionProblems (d : Declaration) : List Problem :=
  if (nonblank? d.permission).isSome then [] else [.emptyPermission]

def flagProblems (d : Declaration) : List Problem :=
  if (flag? d.requiresNation).isSome then [] else [.invalidFlag d.requiresNation]

/-- What is wrong with an alias, given the aliases of the declaration before it. -/
def aliasProblems (owners : Registry) (command? : Option Text) (before : List Text) (name : Text) :
    List Problem :=
  (if startsWithSlash name then [] else [.aliasStart name]) ++
  (if command? = some name then [.aliasIsCommand name] else []) ++
  (if before.contains name then [.duplicateAlias name] else []) ++
  (owners.owner? name).toList.map (.aliasCollision name)

def aliasesProblems (owners : Registry) (command? : Option Text) (before : List Text) :
    List Text → List Problem
  | [] => []
  | name :: rest =>
    aliasProblems owners command? before name ++ aliasesProblems owners command? (name :: before) rest

def exampleProblems (d : Declaration) : List Problem :=
  ((Code.literalValues d.examples).filter (!startsWithSlash ·)).map .exampleStart

/-- What is wrong with a declaration: first the escapes, then the fields in their order. -/
def problems (shape : Shape) (owners : Registry) (d : Declaration) : List (Severity × Problem) :=
  d.escapeProblems ++
  (d.commandProblems owners ++
    textProblems (lit "displayName") d.displayName ++
    textProblems (lit "shortDesc") d.shortDesc ++
    textProblems (lit "fullDesc") d.fullDesc ++
    d.categoryProblems shape ++
    d.permissionProblems ++
    d.flagProblems ++
    aliasesProblems owners (value? d.command) [] (Code.literalValues d.aliases) ++
    d.exampleProblems).map fun problem => (.error, problem)

end Declaration

/-- The declaration that the arguments of a call give, if they are as many as there should be. -/
def Shape.declaration? (shape : Shape) (arguments : List Text) : Option Declaration :=
  if arguments.length = shape.arity then Declaration.ofArguments? arguments else none

/-- What the check of one call finds: the problems, the names claimed, the permission required, and
    the record. -/
structure Verdict where
  problems : List (Severity × Problem)
  names : List Text
  permission : Option Text
  record : Option Record

def Shape.verdict (shape : Shape) (owners : Registry) (arguments : List Text) : Verdict :=
  match shape.declaration? arguments with
  | none => ⟨[(.error, .arity shape.arity arguments.length)], [], none, none⟩
  | some d => ⟨d.problems shape owners, d.names, d.permission?, d.record?⟩

/-- Checks calls in turn, the first of which has a given number. -/
def Shape.verdicts (shape : Shape) (index : Nat) (owners : Registry) :
    List (List Text) → List (Nat × Verdict)
  | [] => []
  | arguments :: rest =>
    let verdict := shape.verdict owners arguments
    (index, verdict) :: shape.verdicts (index + 1) (owners.claimAll index verdict.names) rest

def Shape.findings (shape : Shape) (index : Nat) (verdict : Verdict) : List Finding :=
  verdict.problems.map fun (severity, problem) =>
    ⟨severity, .record shape.artifact index, .catalog problem⟩

def Shape.argumentLists (shape : Shape) (t : Text) : List (List Text) :=
  (Code.calls (.creation shape.creation) t).map (·.2)

end Command

structure Catalog where
  records : List Command.Record
  permissions : NameSet
  findings : List Finding
deriving DecidableEq

namespace Catalog
open Command

/-- The catalog of which nothing is known. -/
def empty : Catalog := ⟨[], ∅, []⟩

def ofVerdicts (shape : Shape) (verdicts : List (Nat × Verdict)) : Catalog where
  records := verdicts.filterMap fun (_, verdict) => verdict.record
  permissions := .ofList (verdicts.filterMap fun (_, verdict) => verdict.permission)
  findings := verdicts.flatMap fun (index, verdict) => shape.findings index verdict

/-- Checks the declarations of a source text. One without declarations is an error as a whole. -/
def ofText (shape : Shape) (t : Text) : Catalog :=
  match shape.argumentLists t with
  | [] => ⟨[], ∅, [.error (.artifact shape.artifact) (.catalog (.noRecords shape.creation))]⟩
  | arguments => ofVerdicts shape (shape.verdicts 1 .empty arguments)

/-- A shape cannot be applied to declarations that have the number of arguments it asks for and
    yet lack some of the nine fields. -/
def applies (shape : Shape) (t : Text) : Bool :=
  (shape.argumentLists t).all fun arguments =>
    arguments.length ≠ shape.arity || (Declaration.ofArguments? arguments).isSome

/-- Checks the declarations of a source text, if the shape can be applied to them. -/
def ofText? (shape : Shape) (t : Text) : Option Catalog :=
  if applies shape t then some (ofText shape t) else none

end Catalog
end PluginAudit
