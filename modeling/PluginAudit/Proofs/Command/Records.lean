import PluginAudit.Proofs.Command.Collisions
import PluginAudit.Proofs.Command.Fields
import PluginAudit.Proofs.Command.Validity

/-!
# Records and permissions

Some problems reject a declaration (`Problem.rejects`): it has another number of arguments, or a field that a record
has to have cannot be read or is blank. It becomes a record exactly when none of them is found under its number, and
its permission is kept in either case (`records_permissions`).
-/
namespace PluginAudit.Command
open Declaration

/-- Whether a problem keeps a declaration from becoming a record. -/
def Problem.rejects : Problem → Bool
  | .arity .. | .unreadableCommand | .emptyField _ | .emptyPermission | .invalidFlag _ => true
  | _ => false

/-- The findings about the declaration of a given number. -/
def Shape.findingsAt (shape : Shape) (catalog : Catalog) (j : Nat) : List Finding :=
  catalog.findings.filter (·.locator = .record shape.artifact j)

/-- Whether the findings about a declaration reject it. -/
def Shape.rejects (shape : Shape) (catalog : Catalog) (j : Nat) : Bool :=
  (shape.findingsAt catalog j).any fun f =>
    match f.problem with
    | .catalog problem => problem.rejects
    | _ => false

section
variable {shape : Shape} {owners : Registry} {d : Declaration} {t : Text} {arguments : List Text} {k : Nat}

/-- The argument for a field can be read, where a record has to have the field. -/
def Declaration.Readable (d : Declaration) : Field → Prop
  | .command => ∃ command, d.name? = some command
  | .displayName => ∃ value, nonblank? d.displayName = some value
  | .shortDesc => ∃ value, nonblank? d.shortDesc = some value
  | .fullDesc => ∃ value, nonblank? d.fullDesc = some value
  | .permission => ∃ value, nonblank? d.permission = some value
  | .requiresNation => ∃ value, flag? d.requiresNation = some value
  | .category | .aliases | .examples => True

theorem exists_record_iff : (∃ r, d.record? = some r) ↔ ∀ field, d.Readable field := by
  simp only [record?_eq_some_iff]
  constructor
  · rintro ⟨r, command, displayName, shortDesc, fullDesc, -, -, -, permission, flag⟩ field
    cases field with
    | command => exact ⟨_, command⟩
    | displayName => exact ⟨_, displayName⟩
    | shortDesc => exact ⟨_, shortDesc⟩
    | fullDesc => exact ⟨_, fullDesc⟩
    | category => trivial
    | aliases => trivial
    | examples => trivial
    | permission => exact ⟨_, permission⟩
    | requiresNation => exact ⟨_, flag⟩
  · intro readable
    obtain ⟨command, h₁⟩ := readable .command
    obtain ⟨displayName, h₂⟩ := readable .displayName
    obtain ⟨shortDesc, h₃⟩ := readable .shortDesc
    obtain ⟨fullDesc, h₄⟩ := readable .fullDesc
    obtain ⟨permission, h₅⟩ := readable .permission
    obtain ⟨flag, h₆⟩ := readable .requiresNation
    exact ⟨⟨command, displayName, shortDesc, fullDesc, d.category, Code.literalValues d.aliases,
      Code.literalValues d.examples, permission, flag⟩, h₁, h₂, h₃, h₄, rfl, rfl, rfl, h₅, h₆⟩

/-- What is wrong with a field rejects the declaration exactly when the field cannot be read. -/
theorem readable_iff (shape : Shape) (owners : Registry) (field : Field) :
    (∀ p ∈ d.fieldProblems shape owners field, p.rejects = false) ↔ d.Readable field := by
  have required : ∀ {α : Type} (value? : Option α) (q : Problem), q.rejects = true →
      ((∀ p ∈ if value?.isSome then [] else [q], p.rejects = false) ↔ ∃ value, value? = some value) := by
    intro α value? q rejects
    cases value? <;> simp [rejects]
  cases field with
  | command =>
    constructor
    · intro accepted
      cases named : d.name? with
      | none => simpa [Problem.rejects] using accepted .unreadableCommand (by simp [fieldProblems, commandProblems, named])
      | some command => exact ⟨command, named⟩
    · rintro ⟨command, named⟩ p mem
      rcases mem_commandProblems mem with ⟨unnamed, -⟩ | ⟨_, -, rfl | ⟨first, -, rfl⟩⟩
      · cases named.symm.trans unnamed
      · rfl
      · rfl
  | displayName => exact required _ _ rfl
  | shortDesc => exact required _ _ rfl
  | fullDesc => exact required _ _ rfl
  | category =>
    refine iff_of_true (fun p mem => ?_) trivial
    rw [fieldProblems, categoryProblems] at mem
    split at mem
    · cases mem
    · rw [List.mem_singleton.mp mem]
      rfl
  | aliases =>
    refine iff_of_true (fun p mem => ?_) trivial
    obtain ⟨before, name, -, mem⟩ := mem_aliasesProblems mem
    rcases mem_aliasProblems mem with rfl | rfl | rfl | ⟨first, -, rfl⟩ <;> rfl
  | examples =>
    refine iff_of_true (fun p mem => ?_) trivial
    obtain ⟨usage, -, rfl⟩ := List.mem_map.mp mem
    rfl
  | permission => exact required _ _ rfl
  | requiresNation => exact required _ _ rfl

theorem error_mem_checks (field : Field) : (.error, field) ∈ checks := by
  cases field <;> decide

/-- A declaration gives a record exactly when no problem rejects it. -/
theorem accepted_iff : (∀ found ∈ (shape.verdict owners arguments).problems, found.2.rejects = false) ↔
    ∃ r, (shape.verdict owners arguments).record = some r := by
  rw [Shape.verdict]
  cases shape.declaration? arguments with
  | none => simp [Problem.rejects]
  | some d =>
    refine Iff.trans ?_ exists_record_iff.symm
    show (∀ found ∈ d.problems shape owners, found.2.rejects = false) ↔ _
    rw [problems_eq_flatMap]
    constructor
    · refine fun accepted field => (readable_iff shape owners field).mp fun p mem => ?_
      exact accepted (.error, p) (List.mem_flatMap.mpr ⟨_, error_mem_checks field, List.mem_map_of_mem mem⟩)
    · intro readable found mem
      obtain ⟨⟨severity, field⟩, -, mem⟩ := List.mem_flatMap.mp mem
      cases severity with
      | warning =>
        obtain ⟨c, -, rfl⟩ := List.mem_map.mp mem
        rfl
      | error =>
        obtain ⟨p, wrong, rfl⟩ := List.mem_map.mp mem
        exact (readable_iff shape owners field).mpr (readable field) p wrong

/-- The record of a declaration is the complete one that its arguments declare. -/
theorem record_verdict_eq_some_iff (nine : shape.arity = Command.arity) {r : Record} :
    (shape.verdict owners arguments).record = some r ↔ Declares arguments r ∧ r.Complete := by
  rw [declares_complete_iff nine, Shape.verdict]
  cases shape.declaration? arguments with
  | none => simp
  | some d => simp

/-- A permission is required by nine arguments of which the eighth is a literal that is not blank. -/
theorem permission_verdict_eq_some_iff (nine : shape.arity = Command.arity) {p : Text} :
    (shape.verdict owners arguments).permission = some p ↔ arguments.length = Command.arity ∧
      ∃ argument value, arguments[7]? = some argument ∧ value? argument = some value ∧ value.blank = false ∧
        p = value.trim := by
  rw [Shape.verdict]
  by_cases length : arguments.length = Command.arity
  · obtain ⟨d, found⟩ := exists_declaration? nine length
    obtain rfl := (declaration?_eq_some_iff nine).mp found
    rw [found]
    simp only [permission?, Option.map_eq_some_iff, nonblank?_eq_some_iff]
    constructor
    · rintro ⟨value, ⟨read, solid⟩, rfl⟩
      exact ⟨length, d.permission, value, rfl, read, solid, rfl⟩
    · rintro ⟨-, _, value, ⟨⟩, read, solid, rfl⟩
      exact ⟨value, ⟨read, solid⟩, rfl⟩
  · have none : shape.declaration? arguments = none := by rw [Shape.declaration?, if_neg (nine ▸ length)]
    simp [none, length]

/-- Two declarations share a name when the later one is told that the earlier one has it. -/
theorem owner?_of_mem_problems {found : Severity × Problem} (mem : found ∈ d.problems shape owners) {name : Text}
    {first : Nat} (crosses : found.2 = .duplicateCommand name first ∨ found.2 = .aliasCollision name first) :
    owners.owner? name = some first := by
  rw [problems_eq_flatMap] at mem
  obtain ⟨⟨severity, field⟩, -, mem⟩ := List.mem_flatMap.mp mem
  have about := field?_of_mem_check mem
  cases severity with
  | warning =>
    obtain ⟨c, -, rfl⟩ := List.mem_map.mp mem
    simp at crosses
  | error =>
    obtain ⟨p, wrong, rfl⟩ := List.mem_map.mp mem
    rcases crosses with rfl | rfl
    · obtain rfl : .command = field := Option.some.inj about
      rcases mem_commandProblems wrong with ⟨-, eq⟩ | ⟨command, -, eq | ⟨_, owned, eq⟩⟩
      · cases eq
      · cases eq
      · cases eq
        exact owned
    · obtain rfl : .aliases = field := Option.some.inj about
      obtain ⟨before, other, -, wrong⟩ := mem_aliasesProblems wrong
      rcases mem_aliasProblems wrong with eq | eq | eq | ⟨_, owned, eq⟩
      · cases eq
      · cases eq
      · cases eq
      · cases eq
        exact owned

theorem verdicts_eq_map (shape : Shape) (t : Text) : shape.verdicts 1 .empty (shape.argumentLists t) =
    ((shape.argumentLists t).zipIdx 1).map fun (arguments, j) =>
      (j, shape.verdict (shape.ownersBefore t j) arguments) := by
  refine List.ext_getElem? fun k => ?_
  rw [verdicts_getElem?, List.getElem?_map, List.getElem?_zipIdx, Option.map_map]
  simp only [Shape.ownersBefore, Function.comp_def, Nat.add_sub_cancel_left]

theorem findingsAt_ofText (at? : (shape.argumentLists t)[k]? = some arguments) :
    shape.findingsAt (.ofText shape t) (k + 1) =
      shape.findings (k + 1) (shape.verdict (shape.ownersBefore t (k + 1)) arguments) := by
  have declared : shape.argumentLists t ≠ [] := by
    intro none
    simp [none] at at?
  rw [Shape.findingsAt, findings_of_declared declared, Nat.add_comm k 1, runFindings_at at?, Shape.ownersBefore,
    Nat.add_sub_cancel_left]

theorem rejects_eq_false_iff (at? : (shape.argumentLists t)[k]? = some arguments) :
    shape.rejects (.ofText shape t) (k + 1) = false ↔
      ∃ r, (shape.verdict (shape.ownersBefore t (k + 1)) arguments).record = some r := by
  rw [Shape.rejects, findingsAt_ofText at?, Shape.findings, List.any_map, List.any_eq_false, ← accepted_iff]
  simp

/-- What is found is found under the number of a declaration, unless there is none. -/
theorem exists_of_mem_findings {f : Finding} (mem : f ∈ (Catalog.ofText shape t).findings) :
    f = .error (.artifact shape.artifact) (.catalog (.noRecords shape.creation)) ∨
      ∃ k arguments, (shape.argumentLists t)[k]? = some arguments ∧
        f ∈ shape.findings (k + 1) (shape.verdict (shape.ownersBefore t (k + 1)) arguments) := by
  by_cases declared : shape.argumentLists t = []
  · rw [Catalog.ofText, declared] at mem
    exact .inl (List.mem_singleton.mp mem)
  · rw [findings_of_declared declared] at mem
    obtain ⟨k, bound, place⟩ := locator_of_mem_runFindings mem
    have at? := List.getElem?_eq_getElem bound
    refine .inr ⟨k, _, at?, ?_⟩
    rw [← findingsAt_ofText at?, Shape.findingsAt, findings_of_declared declared, Nat.add_comm k 1]
    exact List.mem_filter.mpr ⟨mem, decide_eq_true place⟩

/-- A declaration that another is said to share a name with has that name. -/
theorem hasName_of_crosses {f : Finding} (mem : f ∈ (Catalog.ofText shape t).findings) {name : Text} {first : Nat}
    (crosses : f.problem = .catalog (.duplicateCommand name first) ∨ f.problem = .catalog (.aliasCollision name first)) :
    shape.HasName t first name := by
  rcases exists_of_mem_findings mem with rfl | ⟨k, arguments, at?, mem⟩
  · simp [Finding.error] at crosses
  · obtain ⟨found, wrong, rfl⟩ := List.mem_map.mp mem
    rw [Shape.verdict] at wrong
    cases declared : shape.declaration? arguments with
    | none =>
      rw [declared] at wrong
      rw [List.mem_singleton.mp wrong] at crosses
      simp at crosses
    | some d =>
      rw [declared] at wrong
      have owned := owner?_of_mem_problems wrong (by simpa using crosses)
      exact ((owner?_ownersBefore (Nat.succ_ne_zero k)).mp owned).2.1

/-- Of the items that pass a test, each is related to what is made of it, and nothing is made of the others. -/
theorem forall₂_filter_filterMap {α β : Type} {related : α → β → Prop} {test : α → Bool} {make : α → Option β}
    {items : List α} (each : ∀ a ∈ items, (test a = true → ∃ b, make a = some b ∧ related a b) ∧
      (test a = false → make a = none)) : List.Forall₂ related (items.filter test) (items.filterMap make) := by
  induction items with
  | nil => exact .nil
  | cons a items ih =>
    obtain ⟨first, rest⟩ := List.forall_mem_cons.mp each
    cases passes : test a with
    | false =>
      rw [List.filter_cons_of_neg (by simp [passes]), List.filterMap_cons_none (first.2 passes)]
      exact ih rest
    | true =>
      obtain ⟨b, made, holds⟩ := first.1 passes
      rw [List.filter_cons_of_pos passes, List.filterMap_cons_some made]
      exact .cons holds (ih rest)

/-- The declarations that no problem rejects. -/
def Shape.accepted (shape : Shape) (t : Text) (catalog : Catalog) : List (List Text) :=
  (((shape.argumentLists t).zipIdx 1).filter fun (_, j) => !shape.rejects catalog j).map Prod.fst

theorem declares_accepted (nine : shape.arity = Command.arity) :
    List.Forall₂ Declares (shape.accepted t (.ofText shape t)) (Catalog.ofText shape t).records := by
  by_cases declared : shape.argumentLists t = []
  · rw [Shape.accepted, Catalog.ofText, declared]
    exact .nil
  · have records : (Catalog.ofText shape t).records = ((shape.argumentLists t).zipIdx 1).filterMap
        fun (arguments, j) => (shape.verdict (shape.ownersBefore t j) arguments).record := by
      rw [ofText_of_declared declared, Catalog.ofVerdicts, verdicts_eq_map, List.filterMap_map]
      rfl
    rw [records, Shape.accepted, List.forall₂_map_left_iff]
    refine forall₂_filter_filterMap ?_
    rintro ⟨arguments, j⟩ mem
    obtain ⟨after, at?⟩ := List.mk_mem_zipIdx_iff_le_and_getElem?_sub.mp mem
    obtain ⟨k, rfl⟩ := Nat.exists_eq_add_of_le' after
    rw [Nat.add_sub_cancel] at at?
    have accepts := rejects_eq_false_iff at?
    constructor
    · intro accepted
      obtain ⟨r, record⟩ := accepts.mp (by simpa using accepted)
      exact ⟨r, record, ((record_verdict_eq_some_iff nine).mp record).1⟩
    · intro rejected
      by_contra recorded
      have := accepts.mpr (Option.ne_none_iff_exists'.mp recorded)
      simp [this] at rejected

theorem mem_permissions_iff (nine : shape.arity = Command.arity) {p : Text} :
    p ∈ (Catalog.ofText shape t).permissions ↔ ∃ arguments ∈ shape.argumentLists t, arguments.length = Command.arity ∧
      ∃ argument value, arguments[7]? = some argument ∧ value? argument = some value ∧ value.blank = false ∧
        p = value.trim := by
  by_cases declared : shape.argumentLists t = []
  · simp [Catalog.ofText, declared]
  · rw [ofText_of_declared declared, Catalog.ofVerdicts, verdicts_eq_map, NameSet.mem_ofList, List.filterMap_map,
      List.mem_filterMap]
    constructor
    · rintro ⟨⟨arguments, j⟩, mem, required⟩
      exact ⟨arguments, List.fst_mem_of_mem_zipIdx mem, (permission_verdict_eq_some_iff nine).mp required⟩
    · rintro ⟨arguments, mem, required⟩
      obtain ⟨k, at?⟩ := List.mem_iff_getElem?.mp mem
      refine ⟨(arguments, 1 + k), ?_, (permission_verdict_eq_some_iff nine).mpr required⟩
      exact List.mk_mem_zipIdx_iff_le_and_getElem?_sub.mpr ⟨Nat.le_add_right 1 k, by rwa [Nat.add_sub_cancel_left]⟩

end

/-- The declarations that no problem rejects become the records, in order and each from its own arguments; these are
    the declarations of complete records. A permission is kept whenever it can be read. What is found at a declaration
    comes under its own number. One with another number of arguments is only told so, and takes no name from others. -/
theorem records_permissions (shape : Shape) (nine : shape.arity = Command.arity) (t : Text) :
    ∃ catalog, Catalog.ofText? shape t = some catalog ∧
      List.Forall₂ Declares (shape.accepted t catalog) catalog.records ∧
      (∀ p, p ∈ catalog.permissions ↔ ∃ arguments ∈ shape.argumentLists t, arguments.length = Command.arity ∧
        ∃ argument value, arguments[7]? = some argument ∧ value? argument = some value ∧ value.blank = false ∧
          p = value.trim) ∧
      ∀ k arguments, (shape.argumentLists t)[k]? = some arguments →
        (shape.rejects catalog (k + 1) = false ↔ ∃ r, Declares arguments r ∧ r.Complete) ∧
        shape.findingsAt catalog (k + 1) =
          shape.findings (k + 1) (shape.verdict (shape.ownersBefore t (k + 1)) arguments) ∧
        (arguments.length ≠ Command.arity →
          shape.findingsAt catalog (k + 1) =
            [.error (.record shape.artifact (k + 1)) (.catalog (.arity Command.arity arguments.length))] ∧
          ∀ name, ¬ shape.HasName t (k + 1) name ∧ ∀ f ∈ catalog.findings,
            f.problem ≠ .catalog (.duplicateCommand name (k + 1)) ∧
            f.problem ≠ .catalog (.aliasCollision name (k + 1))) := by
  refine ⟨_, ofText?_eq_some nine t, declares_accepted nine, fun p => mem_permissions_iff nine, ?_⟩
  intro k arguments at?
  refine ⟨?_, findingsAt_ofText at?, fun length => ?_⟩
  · rw [rejects_eq_false_iff at?]
    exact exists_congr fun r => record_verdict_eq_some_iff nine
  · have none : shape.declaration? arguments = none := by rw [Shape.declaration?, if_neg (nine ▸ length)]
    have nameless : ∀ name, ¬ shape.HasName t (k + 1) name := by
      intro name has
      obtain ⟨arguments', at?', mem⟩ := hasName_succ_iff.mp has
      obtain rfl := Option.some.inj (at?.symm.trans at?')
      simp [Shape.claims, none] at mem
    refine ⟨?_, fun name => ⟨nameless name, fun f mem => ⟨fun eq => ?_, fun eq => ?_⟩⟩⟩
    · rw [findingsAt_ofText at?, Shape.verdict, none, nine]
      rfl
    · exact nameless name (hasName_of_crosses mem (.inl eq))
    · exact nameless name (hasName_of_crosses mem (.inr eq))

/-- Three declarations: one in which only names, a category and an example are wrong, one of a single argument, and one
    without a text and a flag. -/
def mixed : Text :=
  lit "new CommandInfo(\"a\",\"A\",\"B\",\"C\",x,List.of(\"a\"),List.of(\"\\u\"),\"p\",true) new CommandInfo(\"a\") " ++
  lit "new CommandInfo(\"/a\",\"\",\"B\",\"C\",CommandCategory.D,List.of(\"a\"),List.of(),\" q \",maybe)"

theorem records_mixed : Shape.standard.arity = Command.arity ∧
    (Shape.standard.argumentLists mixed)[1]? = some [lit "\"a\""] ∧ [lit "\"a\""].length ≠ Command.arity ∧
    ∃ catalog, Catalog.ofText? .standard mixed = some catalog ∧
      (∃ r, catalog.records = [r] ∧ Declares [lit "\"a\"", lit "\"A\"", lit "\"B\"", lit "\"C\"", lit "x",
        lit "List.of(\"a\")", lit "List.of(\"\\u\")", lit "\"p\"", lit "true"] r) ∧
      lit "q" ∈ catalog.permissions ∧
      Shape.standard.findingsAt catalog 2 =
        [.error (.record (lit "CommandCatalog") 2) (.catalog (.arity Command.arity 1))] := by
  have second : (Shape.standard.argumentLists mixed)[1]? = some [lit "\"a\""] := by decide +kernel
  obtain ⟨catalog, made, all, permissions, each⟩ := records_permissions .standard rfl mixed
  have accepted : (Catalog.ofText? .standard mixed).map (Shape.standard.accepted mixed) = some [[lit "\"a\"",
      lit "\"A\"", lit "\"B\"", lit "\"C\"", lit "x", lit "List.of(\"a\")", lit "List.of(\"\\u\")",
      lit "\"p\"", lit "true"]] := by
    decide +kernel
  rw [made, Option.map_some, Option.some.injEq] at accepted
  rw [accepted] at all
  refine ⟨rfl, second, by decide, catalog, made, ?_, (permissions _).mpr ?_, ((each 1 _ second).2.2 (by decide)).1⟩
  · obtain ⟨r, rest, declares, none, records⟩ := List.forall₂_cons_left_iff.mp all
    rw [List.forall₂_nil_left_iff.mp none] at records
    exact ⟨r, records, declares⟩
  · exact ⟨[lit "\"/a\"", lit "\"\"", lit "\"B\"", lit "\"C\"", lit "CommandCategory.D", lit "List.of(\"a\")",
      lit "List.of()", lit "\" q \"", lit "maybe"], by decide +kernel, rfl, lit "\" q \"", lit " q ", rfl, by decide +kernel,
      by decide, by decide +kernel⟩

end PluginAudit.Command
