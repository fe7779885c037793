import PluginAudit.Proofs.Command.Verdict

/-!
# Problems by field

What the check of a declaration finds is the concatenation of what it finds in each field (`problems_eq_flatMap`).
Every problem tells the field that it is about (`field?_of_mem_check`), and what is found in a field other than the
command and the aliases depends on its argument alone (`check_congr`).
-/
namespace PluginAudit.Command
open Declaration

/-- The fields of a declaration, in the order of its arguments. -/
inductive Field
  | command
  | displayName
  | shortDesc
  | fullDesc
  | category
  | aliases
  | examples
  | permission
  | requiresNation
deriving DecidableEq

namespace Field

def all : List Field :=
  [command, displayName, shortDesc, fullDesc, category, aliases, examples, permission, requiresNation]

def label : Field → Text
  | command => lit "command"
  | displayName => lit "displayName"
  | shortDesc => lit "shortDesc"
  | fullDesc => lit "fullDesc"
  | category => lit "category"
  | aliases => lit "aliases"
  | examples => lit "examples"
  | permission => lit "permission"
  | requiresNation => lit "requiresNation"

def index : Field → Nat
  | command => 0
  | displayName => 1
  | shortDesc => 2
  | fullDesc => 3
  | category => 4
  | aliases => 5
  | examples => 6
  | permission => 7
  | requiresNation => 8

/-- Whether a field has names, which a declaration shares with the others. -/
def hasNames : Field → Bool
  | command | aliases => true
  | _ => false

def labelled? (name : Text) : Option Field := all.find? (·.label = name)

@[simp] theorem labelled?_label (field : Field) : labelled? field.label = some field := by
  cases field <;> decide +kernel

end Field

/-- The field that a problem is about, if it is about one. -/
def Problem.field? : Problem → Option Field
  | .noRecords _ | .arity .. => none
  | .unreadableCommand | .commandStart _ | .duplicateCommand .. => some .command
  | .missingCategory _ => some .category
  | .emptyPermission => some .permission
  | .invalidFlag _ => some .requiresNation
  | .aliasStart _ | .aliasIsCommand _ | .duplicateAlias _ | .aliasCollision .. => some .aliases
  | .exampleStart _ => some .examples
  | .emptyField name | .unrecognizedEscape name _ => Field.labelled? name

/-- Whether a problem is between a declaration and another before it. -/
def Problem.crosses : Problem → Bool
  | .duplicateCommand .. | .aliasCollision .. => true
  | _ => false

section
variable {shape : Shape} {owners owners' : Registry} {d d' : Declaration} {p : Problem}

def Declaration.argument (d : Declaration) : Field → Text
  | .command => d.command
  | .displayName => d.displayName
  | .shortDesc => d.shortDesc
  | .fullDesc => d.fullDesc
  | .category => d.category
  | .aliases => d.aliases
  | .examples => d.examples
  | .permission => d.permission
  | .requiresNation => d.requiresNation

/-- The literals in the argument of a field whose escapes are looked at. -/
def Field.literals (argument : Text) : Field → List Code.Literal
  | .aliases | .examples => Code.literals argument
  | .category | .requiresNation => []
  | _ => (Code.single? argument).toList

/-- What is wrong with a field besides its escapes, given the owners of the names claimed before. -/
def Declaration.fieldProblems (shape : Shape) (owners : Registry) (d : Declaration) : Field → List Problem
  | .command => d.commandProblems owners
  | .displayName => textProblems Field.displayName.label d.displayName
  | .shortDesc => textProblems Field.shortDesc.label d.shortDesc
  | .fullDesc => textProblems Field.fullDesc.label d.fullDesc
  | .category => d.categoryProblems shape
  | .aliases => aliasesProblems owners (value? d.command) [] (Code.literalValues d.aliases)
  | .examples => d.exampleProblems
  | .permission => d.permissionProblems
  | .requiresNation => d.flagProblems

/-- What is found in a field: its escapes are warnings, and all else is an error. -/
def Declaration.check (shape : Shape) (owners : Registry) (d : Declaration) :
    Severity → Field → List (Severity × Problem)
  | .warning, field => escapeWarnings field.label (field.literals (d.argument field))
  | .error, field => (d.fieldProblems shape owners field).map fun problem => (.error, problem)

/-- The order in which the fields are looked at. -/
def checks : List (Severity × Field) :=
  [(.warning, .command), (.warning, .displayName), (.warning, .shortDesc), (.warning, .fullDesc), (.warning, .aliases),
    (.warning, .examples), (.warning, .permission), (.error, .command), (.error, .displayName), (.error, .shortDesc),
    (.error, .fullDesc), (.error, .category), (.error, .permission), (.error, .requiresNation), (.error, .aliases),
    (.error, .examples)]

/-- What is wrong with a declaration is what is found in its fields. -/
theorem problems_eq_flatMap (shape : Shape) (owners : Registry) (d : Declaration) :
    d.problems shape owners = checks.flatMap fun (severity, field) => d.check shape owners severity field := by
  simp only [problems_eq, errors, escapeProblems, checks, List.flatMap_cons, List.flatMap_nil, List.append_nil,
    List.map_append, List.append_assoc]
  rfl

theorem field?_of_mem_fieldProblems {field : Field} (mem : p ∈ d.fieldProblems shape owners field) :
    p.field? = some field := by
  have wrong : ∀ {passes : Bool} {q : Problem}, p ∈ (if passes then [] else [q]) → p = q := by
    intro passes q mem
    cases passes
    · exact List.mem_singleton.mp mem
    · cases mem
  cases field with
  | command => rcases mem_commandProblems mem with ⟨-, rfl⟩ | ⟨command, -, rfl | ⟨first, -, rfl⟩⟩ <;> rfl
  | displayName => rw [wrong mem, Problem.field?, Field.labelled?_label]
  | shortDesc => rw [wrong mem, Problem.field?, Field.labelled?_label]
  | fullDesc => rw [wrong mem, Problem.field?, Field.labelled?_label]
  | category => rw [wrong mem, Problem.field?]
  | aliases =>
    obtain ⟨before, name, -, mem⟩ := mem_aliasesProblems mem
    rcases mem_aliasProblems mem with rfl | rfl | rfl | ⟨first, -, rfl⟩ <;> rfl
  | examples =>
    obtain ⟨usage, -, rfl⟩ := List.mem_map.mp mem
    rfl
  | permission => rw [wrong mem, Problem.field?]
  | requiresNation => rw [wrong mem, Problem.field?]

/-- What is found in a field is about that field. -/
theorem field?_of_mem_check {severity : Severity} {field : Field} {found : Severity × Problem}
    (mem : found ∈ d.check shape owners severity field) : found.2.field? = some field := by
  cases severity with
  | warning =>
    obtain ⟨c, -, rfl⟩ := List.mem_map.mp mem
    exact field.labelled?_label
  | error =>
    obtain ⟨problem, wrong, rfl⟩ := List.mem_map.mp mem
    exact field?_of_mem_fieldProblems wrong

/-- What is found in a field without names depends on its argument alone. -/
theorem check_congr {field : Field} (plain : field.hasNames = false) (same : d.argument field = d'.argument field)
    (severity : Severity) : d.check shape owners severity field = d'.check shape owners' severity field := by
  cases severity with
  | warning => rw [check, check, same]
  | error =>
    cases field with
    | command => cases plain
    | aliases => cases plain
    | _ =>
      simp only [argument] at same
      simp only [check, fieldProblems, categoryProblems, permissionProblems, flagProblems, exampleProblems, same]

end
end PluginAudit.Command
