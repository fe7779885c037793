import PluginAudit.Proofs.Command.Verdict
import Mathlib.Data.List.Nodup
import Mathlib.Data.List.Forall2

/-!
# Valid catalogs

The check of a catalog raises no error exactly when the catalog is valid (`noErrors_iff_valid`): one declaration
passes when its record is valid and claims only free names (`noErrors_verdict_iff`), and a run over declarations
passes when that holds of each with the names of those before it taken (`noErrors_verdicts_iff`).
-/
namespace PluginAudit.Command
open Declaration

/-- The names of a command: the command itself and its aliases. -/
def Record.names (r : Record) : List Text := r.command :: r.aliases

/-- A letter or an underscore, followed by letters, numerals and underscores. -/
def Constant (t : Text) : Prop :=
  ∃ c rest, t = c :: rest ∧ (isLetter c ∨ c = '_') ∧ ∀ d ∈ rest, isAlphanumeric d ∨ d = '_'

/-- The rules of the fields of a record. -/
structure Record.Valid (shape : Shape) (r : Record) : Prop where
  command : startsWithSlash r.command
  displayName : r.displayName.blank = false
  shortDesc : r.shortDesc.blank = false
  fullDesc : r.fullDesc.blank = false
  category : ∃ name, r.category = shape.categoryStart ++ name ∧ Constant name
  aliases : ∀ name ∈ r.aliases, startsWithSlash name
  examples : ∀ usage ∈ r.examples, startsWithSlash usage
  permission : r.permission.blank = false

/-- The arguments of a declaration are those that a record is read from. -/
def Declares (arguments : List Text) (r : Record) : Prop :=
  ∃ command displayName shortDesc fullDesc aliases examples permission flag,
    arguments = [command, displayName, shortDesc, fullDesc, r.category, aliases, examples, permission, flag] ∧
    value? command = some r.command ∧ value? displayName = some r.displayName ∧
    value? shortDesc = some r.shortDesc ∧ value? fullDesc = some r.fullDesc ∧
    Code.literalValues aliases = r.aliases ∧ Code.literalValues examples = r.examples ∧
    value? permission = some r.permission ∧ flag? flag = some r.requiresNation

/-- No field of a record that must not be empty is. -/
structure Record.Complete (r : Record) : Prop where
  command : r.command ≠ []
  displayName : r.displayName.blank = false
  shortDesc : r.shortDesc.blank = false
  fullDesc : r.fullDesc.blank = false
  permission : r.permission.blank = false

theorem isConstant_iff {t : Text} : isConstant t ↔ Constant t := by
  cases t with
  | nil => simp [isConstant, Constant]
  | cons c t => simp [isConstant, Constant]

theorem Shape.isCategory_iff (shape : Shape) {token : Text} :
    shape.isCategory token ↔ ∃ name, token = shape.categoryStart ++ name ∧ Constant name := by
  rw [Shape.isCategory, Option.any_eq_true]
  constructor
  · rintro ⟨name, found, constant⟩
    exact ⟨name, Text.after?_eq_some_iff.mp found, isConstant_iff.mp constant⟩
  · rintro ⟨name, rfl, constant⟩
    exact ⟨name, Text.after?_eq_some_iff.mpr rfl, isConstant_iff.mpr constant⟩

/-- The name of a category is what follows the point that its constant begins with. -/
theorem categoryName_eq {start name : Text} (constant : Constant name) (point : start.getLast? = some '.') :
    categoryName (start ++ name) = name := by
  obtain ⟨start, rfl⟩ := List.getLast?_eq_some_iff.mp point
  have free : ∀ c ∈ name.reverse, decide (c ≠ '.') = true := by
    obtain ⟨first, rest, rfl, letter, others⟩ := constant
    intro c mem
    rw [decide_eq_true_iff]
    rintro rfl
    rcases List.mem_cons.mp (List.mem_reverse.mp mem) with rfl | mem
    · revert letter; decide
    · have := others '.' mem
      revert this; decide
  rw [categoryName, List.append_assoc, List.reverse_append, List.reverse_append, List.append_assoc,
    List.takeWhile_append_of_pos free]
  simp

theorem startsWithSlash_ne_nil {t : Text} (slash : startsWithSlash t) : t ≠ [] := by
  rintro rfl
  simp [startsWithSlash] at slash

theorem Record.Valid.complete {shape : Shape} {r : Record} (valid : r.Valid shape) : r.Complete where
  command := startsWithSlash_ne_nil valid.command
  displayName := valid.displayName
  shortDesc := valid.shortDesc
  fullDesc := valid.fullDesc
  permission := valid.permission

theorem nonblank?_eq_some_iff {argument value : Text} :
    nonblank? argument = some value ↔ value? argument = some value ∧ value.blank = false := by
  simp [nonblank?, Option.filter_eq_some_iff]

theorem name?_eq_some_iff {d : Declaration} {command : Text} :
    d.name? = some command ↔ value? d.command = some command ∧ command ≠ [] := by
  simp [name?, Option.filter_eq_some_iff]

theorem record?_eq_some_iff {d : Declaration} {r : Record} : d.record? = some r ↔
    d.name? = some r.command ∧ nonblank? d.displayName = some r.displayName ∧
    nonblank? d.shortDesc = some r.shortDesc ∧ nonblank? d.fullDesc = some r.fullDesc ∧
    d.category = r.category ∧ Code.literalValues d.aliases = r.aliases ∧
    Code.literalValues d.examples = r.examples ∧ nonblank? d.permission = some r.permission ∧
    flag? d.requiresNation = some r.requiresNation := by
  obtain ⟨command, displayName, shortDesc, fullDesc, category, aliases, examples, permission, flag⟩ := r
  simp only [record?, Option.bind_eq_bind, Option.bind_eq_some_iff, Option.pure_def, Option.some.injEq, Record.mk.injEq]
  constructor
  · rintro ⟨_, h₁, _, h₂, _, h₃, _, h₄, _, h₅, _, h₆, rfl, rfl, rfl, rfl, h₇, h₈, h₉, rfl, rfl⟩
    exact ⟨h₁, h₂, h₃, h₄, h₇, h₈, h₉, h₅, h₆⟩
  · rintro ⟨h₁, h₂, h₃, h₄, h₇, h₈, h₉, h₅, h₆⟩
    exact ⟨_, h₁, _, h₂, _, h₃, _, h₄, _, h₅, _, h₆, rfl, rfl, rfl, rfl, h₇, h₈, h₉, rfl, rfl⟩

/-- The arguments of complete records are those that the check makes a record of. -/
theorem declares_complete_iff {shape : Shape} (nine : shape.arity = Command.arity) {arguments : List Text} {r : Record} :
    Declares arguments r ∧ r.Complete ↔ ∃ d, shape.declaration? arguments = some d ∧ d.record? = some r := by
  constructor
  · rintro ⟨⟨command, displayName, shortDesc, fullDesc, aliases, examples, permission, flag, rfl, h₁, h₂, h₃, h₄,
      h₅, h₆, h₇, h₈⟩, complete⟩
    refine ⟨⟨command, displayName, shortDesc, fullDesc, r.category, aliases, examples, permission, flag⟩,
      (declaration?_eq_some_iff nine).mpr rfl, record?_eq_some_iff.mpr ?_⟩
    exact ⟨name?_eq_some_iff.mpr ⟨h₁, complete.command⟩,
      nonblank?_eq_some_iff.mpr ⟨h₂, complete.displayName⟩, nonblank?_eq_some_iff.mpr ⟨h₃, complete.shortDesc⟩,
      nonblank?_eq_some_iff.mpr ⟨h₄, complete.fullDesc⟩, rfl, h₅, h₆,
      nonblank?_eq_some_iff.mpr ⟨h₇, complete.permission⟩, h₈⟩
  · rintro ⟨d, found, record⟩
    obtain ⟨h₁, h₂, h₃, h₄, h₅, h₆, h₇, h₈, h₉⟩ := record?_eq_some_iff.mp record
    rw [name?_eq_some_iff] at h₁
    rw [nonblank?_eq_some_iff] at h₂ h₃ h₄ h₈
    refine ⟨⟨d.command, d.displayName, d.shortDesc, d.fullDesc, d.aliases, d.examples, d.permission,
      d.requiresNation, ?_, h₁.1, h₂.1, h₃.1, h₄.1, h₆, h₇, h₈.1, h₉⟩, h₁.2, h₂.2, h₃.2, h₄.2, h₈.2⟩
    rw [← h₅]
    exact (declaration?_eq_some_iff nine).mp found

theorem declares_iff {shape : Shape} (nine : shape.arity = Command.arity) {arguments : List Text} {r : Record} :
    Declares arguments r ∧ r.Valid shape ↔
      ∃ d, shape.declaration? arguments = some d ∧ d.record? = some r ∧ r.Valid shape := by
  constructor
  · rintro ⟨declares, valid⟩
    obtain ⟨d, found, record⟩ := (declares_complete_iff nine).mp ⟨declares, valid.complete⟩
    exact ⟨d, found, record, valid⟩
  · rintro ⟨d, found, record, valid⟩
    exact ⟨((declares_complete_iff nine).mpr ⟨d, found, record⟩).1, valid⟩

/-! ## One declaration -/

section
variable {shape : Shape} {owners : Registry} {d : Declaration} {r : Record}

theorem commandProblems_eq_nil_iff : d.commandProblems owners = [] ↔
    ∃ command, d.name? = some command ∧ startsWithSlash command ∧ owners.owner? command = none := by
  rw [commandProblems]
  cases d.name? with
  | none => simp
  | some command => simp

theorem textProblems_eq_nil_iff {field argument : Text} :
    textProblems field argument = [] ↔ ∃ value, nonblank? argument = some value := by
  simp [textProblems, Option.isSome_iff_exists]

theorem permissionProblems_eq_nil_iff :
    d.permissionProblems = [] ↔ ∃ value, nonblank? d.permission = some value := by
  simp [permissionProblems, Option.isSome_iff_exists]

theorem flagProblems_eq_nil_iff : d.flagProblems = [] ↔ ∃ value, flag? d.requiresNation = some value := by
  rw [flagProblems, ← Option.isSome_iff_exists]
  split <;> simp_all

theorem categoryProblems_eq_nil_iff : d.categoryProblems shape = [] ↔ shape.isCategory d.category := by
  simp [categoryProblems]

theorem aliasProblems_eq_nil_iff {command? : Option Text} {before : List Text} {name : Text} :
    aliasProblems owners command? before name = [] ↔
      startsWithSlash name ∧ command? ≠ some name ∧ name ∉ before ∧ owners.owner? name = none := by
  simp [aliasProblems]

/-- Aliases pass when each begins with a slash and is new: it is not the command, no alias before it,
    and has no owner. -/
theorem aliasesProblems_eq_nil_iff {command? : Option Text} {before names : List Text} :
    aliasesProblems owners command? before names = [] ↔
      (∀ name ∈ names, startsWithSlash name ∧ command? ≠ some name ∧ name ∉ before ∧ owners.owner? name = none) ∧
        names.Nodup := by
  induction names generalizing before with
  | nil => simp [aliasesProblems]
  | cons name names ih =>
    rw [aliasesProblems, List.append_eq_nil_iff, aliasProblems_eq_nil_iff, ih, List.nodup_cons]
    constructor
    · rintro ⟨first, rest, distinct⟩
      refine ⟨fun other mem => ?_, fun mem => (rest name mem).2.2.1 (by simp), distinct⟩
      rcases List.mem_cons.mp mem with rfl | mem
      · exact first
      · obtain ⟨slash, notCommand, new, free⟩ := rest other mem
        exact ⟨slash, notCommand, fun old => new (List.mem_cons_of_mem name old), free⟩
    · rintro ⟨each, new, distinct⟩
      refine ⟨each name (by simp), fun other mem => ?_, distinct⟩
      obtain ⟨slash, notCommand, old, free⟩ := each other (List.mem_cons_of_mem name mem)
      refine ⟨slash, notCommand, fun before => ?_, free⟩
      rcases List.mem_cons.mp before with rfl | before
      · exact new mem
      · exact old before

theorem exampleProblems_eq_nil_iff :
    d.exampleProblems = [] ↔ ∀ usage ∈ Code.literalValues d.examples, startsWithSlash usage := by
  simp [exampleProblems]

/-- A declaration has no errors exactly when it gives a valid record whose names are distinct and free. -/
theorem errors_eq_nil_iff : d.errors shape owners = [] ↔
    ∃ r, d.record? = some r ∧ r.Valid shape ∧ r.names.Nodup ∧ ∀ name ∈ r.names, owners.owner? name = none := by
  simp only [errors, List.append_eq_nil_iff, commandProblems_eq_nil_iff, textProblems_eq_nil_iff,
    categoryProblems_eq_nil_iff, permissionProblems_eq_nil_iff, flagProblems_eq_nil_iff, aliasesProblems_eq_nil_iff,
    exampleProblems_eq_nil_iff]
  constructor
  · rintro ⟨⟨⟨⟨⟨⟨⟨⟨⟨command, named, slash, free⟩, ⟨displayName, h₂⟩⟩, ⟨shortDesc, h₃⟩⟩, ⟨fullDesc, h₄⟩⟩, category⟩,
      ⟨permission, h₇⟩⟩, ⟨flag, h₈⟩⟩, aliases, distinct⟩, examples⟩
    obtain ⟨value, -⟩ := name?_eq_some_iff.mp named
    refine ⟨⟨command, displayName, shortDesc, fullDesc, d.category, Code.literalValues d.aliases,
      Code.literalValues d.examples, permission, flag⟩, ?_, ?_, ?_, ?_⟩
    · exact record?_eq_some_iff.mpr ⟨named, h₂, h₃, h₄, rfl, rfl, rfl, h₇, h₈⟩
    · exact {
        command := slash
        displayName := (nonblank?_eq_some_iff.mp h₂).2
        shortDesc := (nonblank?_eq_some_iff.mp h₃).2
        fullDesc := (nonblank?_eq_some_iff.mp h₄).2
        category := shape.isCategory_iff.mp category
        aliases := fun name mem => (aliases name mem).1
        examples := examples
        permission := (nonblank?_eq_some_iff.mp h₇).2 }
    · exact List.nodup_cons.mpr ⟨fun mem => (aliases command mem).2.1 value, distinct⟩
    · intro name mem
      rcases List.mem_cons.mp mem with rfl | mem
      · exact free
      · exact (aliases name mem).2.2.2
  · rintro ⟨r, record, valid, distinct, free⟩
    obtain ⟨h₁, h₂, h₃, h₄, h₅, h₆, h₇, h₈, h₉⟩ := record?_eq_some_iff.mp record
    obtain ⟨notAlias, distinct⟩ := List.nodup_cons.mp distinct
    refine ⟨⟨⟨⟨⟨⟨⟨⟨⟨r.command, h₁, valid.command, free _ (by simp [Record.names])⟩, ⟨_, h₂⟩⟩, ⟨_, h₃⟩⟩, ⟨_, h₄⟩⟩, ?_⟩,
      ⟨_, h₈⟩⟩, ⟨_, h₉⟩⟩, ?_, ?_⟩, ?_⟩
    · rw [h₅]
      exact shape.isCategory_iff.mpr valid.category
    · rw [h₆, (name?_eq_some_iff.mp h₁).1]
      intro name mem
      refine ⟨valid.aliases name mem, ?_, by simp, free name (by simp [Record.names, mem])⟩
      rintro ⟨⟩
      exact notAlias mem
    · rw [h₆]
      exact distinct
    · rw [h₇]
      exact valid.examples

/-- A verdict without errors; there may be warnings. -/
def Verdict.NoErrors (verdict : Verdict) : Prop := ∀ found ∈ verdict.problems, found.1 ≠ .error

theorem noErrors_problems_iff {names : List Text} {permission : Option Text} {record : Option Record} :
    Verdict.NoErrors ⟨d.problems shape owners, names, permission, record⟩ ↔ d.errors shape owners = [] := by
  rw [Verdict.NoErrors, problems_eq]
  constructor
  · intro clean
    rw [List.eq_nil_iff_forall_not_mem]
    intro problem mem
    exact clean (.error, problem) (by simp [mem]) rfl
  · intro none found mem
    rw [none, List.map_nil, List.append_nil] at mem
    obtain ⟨field, c, rfl⟩ := warning_of_mem_escapeProblems mem
    exact fun eq => by cases eq

/-- A declaration without errors and unknown escapes has no problems. -/
theorem problems_eq_nil {arguments : List Text} (clean : (shape.verdict owners arguments).NoErrors)
    (escapes : ∀ d, shape.declaration? arguments = some d → d.escapeProblems = []) :
    (shape.verdict owners arguments).problems = [] := by
  rw [Shape.verdict] at clean ⊢
  cases found : shape.declaration? arguments with
  | none =>
    rw [found] at clean
    exact absurd rfl (clean _ (List.mem_singleton.mpr rfl))
  | some d =>
    rw [found] at clean
    show d.problems shape owners = []
    rw [problems_eq, escapes d found, noErrors_problems_iff.mp clean]
    rfl

/-- A declaration passes when it gives a valid record whose names are distinct and free. -/
theorem noErrors_verdict_iff (nine : shape.arity = Command.arity) {arguments : List Text} :
    (shape.verdict owners arguments).NoErrors ↔ ∃ r, Declares arguments r ∧ r.Valid shape ∧ r.names.Nodup ∧
      ∀ name ∈ r.names, owners.owner? name = none := by
  rw [Shape.verdict]
  cases found : shape.declaration? arguments with
  | none =>
    constructor
    · intro clean
      exact absurd rfl (clean _ (List.mem_singleton.mpr rfl))
    · rintro ⟨r, declares, valid, -⟩
      obtain ⟨d, found', -⟩ := (declares_iff nine).mp ⟨declares, valid⟩
      cases found.symm.trans found'
  | some d =>
    rw [noErrors_problems_iff, errors_eq_nil_iff]
    refine exists_congr fun r => ?_
    rw [← and_assoc, ← and_assoc (a := Declares arguments r), declares_iff nine, found]
    simp

theorem verdict_of_declares (nine : shape.arity = Command.arity) (owners : Registry) {arguments : List Text}
    (declares : Declares arguments r) (valid : r.Valid shape) :
    (shape.verdict owners arguments).record = some r ∧ (shape.verdict owners arguments).names = r.names ∧
      (shape.verdict owners arguments).permission = some r.permission.trim := by
  obtain ⟨d, found, record, -⟩ := (declares_iff nine).mp ⟨declares, valid⟩
  obtain ⟨h₁, -, -, -, -, h₆, -, h₈, -⟩ := record?_eq_some_iff.mp record
  rw [Shape.verdict, found]
  refine ⟨record, ?_, ?_⟩
  · simp [Declaration.names, Record.names, h₁, h₆]
  · simp [permission?, h₈]

/-- Declarations pass when each gives a valid record, and no name is claimed twice or has an owner. -/
theorem noErrors_verdicts_iff (nine : shape.arity = Command.arity) {lists : List (List Text)} (index : Nat) :
    (∀ entry ∈ shape.verdicts index owners lists, entry.2.NoErrors) ↔
      ∃ records, List.Forall₂ Declares lists records ∧ (∀ r ∈ records, r.Valid shape) ∧
        (records.flatMap Record.names).Nodup ∧ ∀ name ∈ records.flatMap Record.names, owners.owner? name = none := by
  induction lists generalizing index owners with
  | nil => exact ⟨fun _ => ⟨[], .nil, by simp, by simp, by simp⟩, by simp [Shape.verdicts]⟩
  | cons arguments lists ih =>
    rw [Shape.verdicts, List.forall_mem_cons, noErrors_verdict_iff nine, ih]
    constructor
    · rintro ⟨⟨r, declares, valid, distinct, free⟩, records, all, rules, distinct', free'⟩
      obtain ⟨-, names, -⟩ := verdict_of_declares nine owners declares valid
      simp only [names, Registry.owner?_claimAll] at free'
      refine ⟨r :: records, .cons declares all, List.forall_mem_cons.mpr ⟨valid, rules⟩, ?_, ?_⟩
      · refine List.nodup_append'.mpr ⟨distinct, distinct', fun name mem mem' => ?_⟩
        simpa [mem] using free' name mem'
      · intro name mem
        rcases List.mem_append.mp mem with mem | mem
        · exact free name mem
        · have := free' name mem
          split at this
          · cases this
          · exact this
    · rintro ⟨records, all, rules, distinct, free⟩
      cases all with
      | @cons _ r _ records declares all =>
        obtain ⟨valid, rules⟩ := List.forall_mem_cons.mp rules
        obtain ⟨-, names, -⟩ := verdict_of_declares nine owners declares valid
        obtain ⟨distinct, distinct', apart⟩ := List.nodup_append'.mp distinct
        refine ⟨⟨r, declares, valid, distinct, fun name mem => free name (List.mem_append_left _ mem)⟩,
          records, all, rules, distinct', fun name mem => ?_⟩
        rw [names, Registry.owner?_claimAll, if_neg fun mem' => apart mem' mem]
        exact free name (List.mem_append_right _ mem)

theorem verdicts_of_declares (nine : shape.arity = Command.arity) {lists : List (List Text)} {records : List Record}
    (all : List.Forall₂ Declares lists records) (rules : ∀ r ∈ records, r.Valid shape) (index : Nat)
    (owners : Registry) :
    (shape.verdicts index owners lists).filterMap (fun (_, verdict) => verdict.record) = records ∧
      (shape.verdicts index owners lists).filterMap (fun (_, verdict) => verdict.permission) =
        records.map (·.permission.trim) := by
  induction all generalizing index owners with
  | nil => simp [Shape.verdicts]
  | @cons arguments r lists records declares all ih =>
    obtain ⟨valid, rules⟩ := List.forall_mem_cons.mp rules
    obtain ⟨record, -, permission⟩ := verdict_of_declares nine owners declares valid
    obtain ⟨later, later'⟩ := ih rules (index + 1)
      (owners.claimAll index (shape.verdict owners arguments).names)
    simp only [Shape.verdicts, List.filterMap_cons, record, permission, later, later', List.map_cons, and_self]

/-! ## Catalogs -/

theorem Shape.findings_error {index : Nat} {verdict : Verdict} :
    (∀ f ∈ shape.findings index verdict, f.severity ≠ .error) ↔ verdict.NoErrors := by
  simp only [Shape.findings, Verdict.NoErrors, List.mem_map, forall_exists_index, and_imp,
    forall_apply_eq_imp_iff₂]

theorem noErrors_ofVerdicts_iff {verdicts : List (Nat × Verdict)} :
    (∀ f ∈ (Catalog.ofVerdicts shape verdicts).findings, f.severity ≠ .error) ↔
      ∀ entry ∈ verdicts, entry.2.NoErrors := by
  simp only [Catalog.ofVerdicts, List.mem_flatMap, forall_exists_index, and_imp]
  constructor
  · intro clean entry mem
    exact Shape.findings_error.mp fun f mem' => clean f entry mem mem'
  · intro clean f entry mem mem'
    exact Shape.findings_error.mpr (clean entry mem) f mem'

end

/-- A catalog is valid for the argument lists that were found: there are some, each has nine
    arguments and gives one record, the records keep the rules of their fields, no two of their
    names are the same, and the permissions are those that the records require. -/
structure Catalog.Valid (shape : Shape) (lists : List (List Text)) (catalog : Catalog) : Prop where
  declared : lists ≠ []
  arity : ∀ arguments ∈ lists, arguments.length = Command.arity
  records : List.Forall₂ Declares lists catalog.records
  rules : ∀ r ∈ catalog.records, r.Valid shape
  categories : shape.categoryStart.getLast? = some '.' →
    ∀ r ∈ catalog.records, r.category = shape.categoryStart ++ categoryName r.category
  aliases : ∀ r ∈ catalog.records, r.command ∉ r.aliases
  distinct : (catalog.records.flatMap Record.names).Nodup
  permissions : ∀ p, p ∈ catalog.permissions ↔ ∃ r ∈ catalog.records, p = r.permission.trim

theorem length_of_declares {lists : List (List Text)} {records : List Record}
    (all : List.Forall₂ Declares lists records) : ∀ arguments ∈ lists, arguments.length = Command.arity := by
  induction all with
  | nil => simp
  | cons declares _ ih =>
    refine List.forall_mem_cons.mpr ⟨?_, ih⟩
    obtain ⟨_, _, _, _, _, _, _, _, rfl, -⟩ := declares
    rfl

theorem valid_ofVerdicts {shape : Shape} (nine : shape.arity = Command.arity) {lists : List (List Text)}
    {records : List Record} (declared : lists ≠ []) (all : List.Forall₂ Declares lists records)
    (rules : ∀ r ∈ records, r.Valid shape) (distinct : (records.flatMap Record.names).Nodup) :
    Catalog.Valid shape lists (Catalog.ofVerdicts shape (shape.verdicts 1 .empty lists)) := by
  obtain ⟨listed, required⟩ := verdicts_of_declares nine all rules 1 .empty
  have recordsEq : (Catalog.ofVerdicts shape (shape.verdicts 1 .empty lists)).records = records := listed
  refine ⟨declared, ?_, by rwa [recordsEq], by rwa [recordsEq], ?_, ?_, by rwa [recordsEq], ?_⟩
  · exact length_of_declares all
  · rw [recordsEq]
    intro point r mem
    obtain ⟨name, category, constant⟩ := (rules r mem).category
    rw [category, categoryName_eq constant point]
  · rw [recordsEq]
    intro r mem
    exact (List.nodup_cons.mp ((List.nodup_flatMap.mp distinct).1 r mem)).1
  · intro p
    rw [recordsEq, Catalog.ofVerdicts, NameSet.mem_ofList, required, List.mem_map]
    exact exists_congr fun r => and_congr_right fun _ => eq_comm

/-- The check of a source text raises no error exactly when its declarations make up a valid catalog. -/
theorem noErrors_iff_valid (shape : Shape) (nine : shape.arity = Command.arity) (t : Text) :
    ∃ catalog, Catalog.ofText? shape t = some catalog ∧
      ((∀ f ∈ catalog.findings, f.severity ≠ .error) ↔ Catalog.Valid shape (shape.argumentLists t) catalog) := by
  refine ⟨_, ofText?_eq_some nine t, ?_⟩
  by_cases declared : shape.argumentLists t = []
  · have none : Catalog.ofText shape t =
        ⟨[], ∅, [.error (.artifact shape.artifact) (.catalog (.noRecords shape.creation))]⟩ := by
      simp [Catalog.ofText, declared]
    constructor
    · intro clean
      rw [none] at clean
      exact absurd rfl (clean _ (List.mem_singleton.mpr rfl))
    · exact fun valid => absurd declared valid.declared
  · rw [ofText_of_declared declared, noErrors_ofVerdicts_iff, noErrors_verdicts_iff nine 1]
    constructor
    · rintro ⟨records, all, rules, distinct, -⟩
      exact valid_ofVerdicts nine declared all rules distinct
    · intro valid
      exact ⟨_, valid.records, valid.rules, valid.distinct, fun name _ => Registry.owner?_empty name⟩

/-- A declaration with an unknown escape, which is no error. -/
def escaped : Text :=
  lit "new CommandInfo(\"/a\", \"A\", \"B\", \"C\", CommandCategory.D, List.of(\"/b\"), List.of(\"/a \\q\"), \" p \", true)"

theorem valid_escaped : Shape.standard.arity = Command.arity ∧ ∃ catalog, Catalog.ofText? .standard escaped = some catalog ∧
    catalog.findings = [⟨.warning, .record (lit "CommandCatalog") 1, .catalog (.unrecognizedEscape (lit "examples") 'q')⟩] ∧
    Catalog.Valid .standard (Shape.standard.argumentLists escaped) catalog := by
  obtain ⟨catalog, made, errors⟩ := noErrors_iff_valid .standard rfl escaped
  have warned : (Catalog.ofText? .standard escaped).map (·.findings) =
      some [⟨.warning, .record (lit "CommandCatalog") 1, .catalog (.unrecognizedEscape (lit "examples") 'q')⟩] := by
    decide +kernel
  rw [made, Option.map_some, Option.some.injEq] at warned
  refine ⟨rfl, catalog, made, warned, errors.mp fun f mem => ?_⟩
  rw [warned] at mem
  rw [List.mem_singleton.mp mem]
  decide

end PluginAudit.Command
