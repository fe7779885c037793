import PluginAudit.Proofs.Command.Fields

/-!
# Independence of fields

When one argument of one declaration is replaced, what is found in the other fields stays as it is, in content and
order (`findings_of_replaced`). A replaced command or list of aliases can change which names are taken, and so the
collisions that are reported, but nothing else.
-/
namespace PluginAudit.Command
open Declaration

/-- Two declarations differ at most in a field. -/
def Declaration.SameBut (field : Field) (d d' : Declaration) : Prop :=
  ∀ other, other ≠ field → d.argument other = d'.argument other

/-- Whether a finding is about one of some fields of the declaration of a given number. -/
def Shape.concerns (shape : Shape) (j : Nat) (fields : Field → Bool) (f : Finding) : Bool :=
  f.locator = .record shape.artifact j &&
    match f.problem with
    | .catalog problem => problem.field?.any fields
    | _ => false

/-- Whether a finding is about a name that an earlier declaration has. -/
def crosses (f : Finding) : Bool :=
  match f.problem with
  | .catalog problem => problem.crosses
  | _ => false

section
variable {shape : Shape} {owners owners' : Registry} {d d' : Declaration} {field : Field} {arguments : List Text}

/-- What is found in a field depends on its argument, on the names taken, and for the aliases also on the command. -/
theorem check_eq {other : Field} (same : d.argument other = d'.argument other) (command : d.command = d'.command)
    (severity : Severity) : d.check shape owners severity other = d'.check shape owners severity other := by
  cases severity with
  | warning => rw [check, check, same]
  | error =>
    cases other with
    | command => simp only [check, fieldProblems, commandProblems, name?, command]
    | aliases =>
      simp only [argument] at same
      simp only [check, fieldProblems, same, command]
    | _ => exact check_congr rfl same .error

theorem filter_check_eq_nil {keep : Severity × Problem → Bool} {severity : Severity}
    (apart : ∀ found, found.2.field? = some field → keep found = false) :
    (d.check shape owners severity field).filter keep = [] :=
  List.filter_eq_nil_iff.mpr fun found mem => by simp [apart found (field?_of_mem_check mem)]

/-- Two declarations are told the same, except for what a filter takes out, when the check of each field is. -/
theorem filter_problems_congr {keep : Severity × Problem → Bool}
    (each : ∀ severity field, (d.check shape owners severity field).filter keep =
      (d'.check shape owners' severity field).filter keep) :
    (d.problems shape owners).filter keep = (d'.problems shape owners').filter keep := by
  rw [problems_eq_flatMap, problems_eq_flatMap, List.filter_flatMap, List.filter_flatMap]
  exact List.flatMap_congr fun pair _ => each pair.1 pair.2

/-- Of declarations that differ in a field without names, the same is found in all others. -/
theorem problems_of_sameBut (shape : Shape) (owners : Registry) (plain : field.hasNames = false)
    (same : SameBut field d d') : (d.problems shape owners).filter (fun found => !found.2.field?.any (· = field)) =
      (d'.problems shape owners).filter fun found => !found.2.field?.any (· = field) := by
  refine filter_problems_congr fun severity other => ?_
  by_cases eq : other = field
  · have apart : ∀ found : Severity × Problem, found.2.field? = some other →
        (!found.2.field?.any (· = field)) = false := fun found about => by simp [about, eq]
    rw [filter_check_eq_nil apart, filter_check_eq_nil apart]
  · have command : d.command = d'.command := same .command (by rintro rfl; cases plain)
    rw [check_eq (same other eq) command severity]

/-- Of declarations that differ in a field with names, the same is found in the fields without, whatever names are
    taken. -/
theorem plain_problems_of_sameBut (shape : Shape) (owners owners' : Registry) (names : field.hasNames = true)
    (same : SameBut field d d') : (d.problems shape owners).filter (fun found => found.2.field?.any (!·.hasNames)) =
      (d'.problems shape owners').filter fun found => found.2.field?.any (!·.hasNames) := by
  refine filter_problems_congr fun severity other => ?_
  cases plain : other.hasNames with
  | true =>
    have apart : ∀ found : Severity × Problem, found.2.field? = some other →
        found.2.field?.any (!·.hasNames) = false := fun found about => by simp [about, plain]
    rw [filter_check_eq_nil apart, filter_check_eq_nil apart]
  | false =>
    rw [check_congr plain (same other ?_) severity]
    rintro rfl
    cases names.symm.trans plain

theorem filter_crosses_map {make : Nat → Problem} (items : List Nat) (each : ∀ first, (make first).crosses = true) :
    (items.map make).filter (!·.crosses) = [] := by
  refine List.filter_eq_nil_iff.mpr fun p mem => ?_
  obtain ⟨first, -, rfl⟩ := List.mem_map.mp mem
  simp [each first]

theorem commandProblems_of_owners : (d.commandProblems owners).filter (!·.crosses) =
    (d.commandProblems owners').filter (!·.crosses) := by
  have taken : ∀ (owners : Registry) command,
      ((owners.owner? command).toList.map (Problem.duplicateCommand command)).filter (!·.crosses) = [] :=
    fun _ _ => filter_crosses_map _ fun _ => rfl
  rw [commandProblems, commandProblems]
  cases d.name? with
  | none => rfl
  | some command => simp only [List.filter_append, taken]

theorem aliasesProblems_of_owners (command? : Option Text) (before names : List Text) :
    (aliasesProblems owners command? before names).filter (!·.crosses) =
      (aliasesProblems owners' command? before names).filter (!·.crosses) := by
  have taken : ∀ (owners : Registry) name,
      ((owners.owner? name).toList.map (Problem.aliasCollision name)).filter (!·.crosses) = [] :=
    fun _ _ => filter_crosses_map _ fun _ => rfl
  induction names generalizing before with
  | nil => rfl
  | cons name names ih =>
    simp only [aliasesProblems, aliasProblems, List.filter_append, taken]
    rw [ih]

/-- Which names are taken makes no difference to what is found, except for the collisions. -/
theorem problems_of_owners : (d.problems shape owners).filter (!·.2.crosses) =
    (d.problems shape owners').filter (!·.2.crosses) := by
  refine filter_problems_congr fun severity field => ?_
  cases plain : field.hasNames with
  | false => rw [check_congr plain rfl severity]
  | true =>
    cases severity with
    | warning => rfl
    | error =>
      have errors : (d.fieldProblems shape owners field).filter (!·.crosses) =
          (d.fieldProblems shape owners' field).filter (!·.crosses) := by
        cases field with
        | command => exact commandProblems_of_owners
        | aliases => exact aliasesProblems_of_owners _ _ _
        | _ => cases plain
      simp only [check, List.filter_map]
      exact congrArg _ errors

theorem problems_verdict (found : shape.declaration? arguments = some d) :
    (shape.verdict owners arguments).problems = d.problems shape owners := by
  rw [Shape.verdict, found]

theorem concerns_at {index : Nat} {fields : Field → Bool} (found : Severity × Problem) :
    shape.concerns index fields ⟨found.1, .record shape.artifact index, .catalog found.2⟩ =
      found.2.field?.any fields := by
  simp [Shape.concerns]

/-- A filter on findings filters the problems of a verdict. -/
theorem filter_findings_congr {keep : Finding → Bool} {test : Severity × Problem → Bool} {index : Nat}
    {verdict verdict' : Verdict} (tests : ∀ found,
      keep ⟨found.1, .record shape.artifact index, .catalog found.2⟩ = test found)
    (same : verdict.problems.filter test = verdict'.problems.filter test) :
    (shape.findings index verdict).filter keep = (shape.findings index verdict').filter keep := by
  rw [Shape.findings, Shape.findings, List.filter_map, List.filter_map]
  refine congrArg (List.map _) ?_
  calc verdict.problems.filter _
    _ = verdict.problems.filter test := List.filter_congr fun found _ => tests found
    _ = verdict'.problems.filter test := same
    _ = verdict'.problems.filter _ := List.filter_congr fun found _ => (tests found).symm

/-- Which names are taken makes no difference to what a run finds, except for the collisions. -/
theorem runFindings_of_owners (shape : Shape) (owners owners' : Registry) (index : Nat) (lists : List (List Text)) :
    (shape.runFindings index owners lists).filter (!crosses ·) =
      (shape.runFindings index owners' lists).filter (!crosses ·) := by
  induction lists generalizing index owners owners' with
  | nil => rfl
  | cons arguments lists ih =>
    have verdict : (shape.verdict owners arguments).problems.filter (!·.2.crosses) =
        (shape.verdict owners' arguments).problems.filter (!·.2.crosses) := by
      rw [Shape.verdict, Shape.verdict]
      cases shape.declaration? arguments with
      | none => rfl
      | some d => exact problems_of_owners
    have first : (shape.findings index (shape.verdict owners arguments)).filter (!crosses ·) =
        (shape.findings index (shape.verdict owners' arguments)).filter (!crosses ·) :=
      filter_findings_congr (fun _ => rfl) verdict
    rw [runFindings_cons, runFindings_cons, List.filter_append, List.filter_append, first, ih]

theorem getElem?_index (nine : shape.arity = Command.arity) (found : shape.declaration? arguments = some d)
    (field : Field) : arguments[field.index]? = some (d.argument field) := by
  rw [(declaration?_eq_some_iff nine).mp found]
  cases field <;> rfl

theorem Field.index_injective : Function.Injective Field.index := by
  have inverse : ∀ field : Field, Field.all[field.index]? = some field := by
    intro field
    cases field <;> rfl
  intro field other same
  have := inverse field
  rw [same, inverse other] at this
  exact (Option.some.inj this).symm

/-- When an argument is replaced, the declarations before and after differ at most in its field. -/
theorem exists_sameBut (nine : shape.arity = Command.arity) (length : arguments.length = Command.arity) (field : Field)
    (argument : Text) : ∃ d d', shape.declaration? arguments = some d ∧
      shape.declaration? (arguments.set field.index argument) = some d' ∧ SameBut field d d' := by
  obtain ⟨d, found⟩ := exists_declaration? nine length
  obtain ⟨d', found'⟩ := exists_declaration? nine (List.length_set.trans length)
  refine ⟨d, d', found, found', fun other ne => ?_⟩
  have eq := getElem?_index nine found' other
  rw [List.getElem?_set_ne (fun same => ne (Field.index_injective same).symm), getElem?_index nine found other] at eq
  exact Option.some.inj eq

theorem findings_split {t : Text} {before after : List (List Text)}
    (lists : shape.argumentLists t = before ++ arguments :: after) : (Catalog.ofText shape t).findings =
      shape.runFindings 1 .empty before ++
        (shape.findings (before.length + 1) (shape.verdict (Registry.empty.after shape.claims 1 before) arguments) ++
          shape.runFindings (before.length + 2)
            ((Registry.empty.after shape.claims 1 before).claimAll (before.length + 1) (shape.claims arguments)) after) := by
  rw [findings_of_declared (by simp [lists]), lists, runFindings_append, runFindings_cons, Nat.add_comm 1]

section
variable {t t' : Text} {before after : List (List Text)} {arguments' : List Text}
  (lists : shape.argumentLists t = before ++ arguments :: after)
  (lists' : shape.argumentLists t' = before ++ arguments' :: after)
include lists lists'

/-- A changed field without names changes nothing but what is found in it. -/
theorem findings_of_plain (found : shape.declaration? arguments = some d)
    (found' : shape.declaration? arguments' = some d') (same : SameBut field d d') (plain : field.hasNames = false) :
    (Catalog.ofText shape t).findings.filter (!shape.concerns (before.length + 1) (· = field) ·) =
      (Catalog.ofText shape t').findings.filter (!shape.concerns (before.length + 1) (· = field) ·) := by
  have claims : shape.claims arguments = shape.claims arguments' := by
    have command : d.command = d'.command := same .command (by rintro rfl; cases plain)
    have aliases : d.aliases = d'.aliases := same .aliases (by rintro rfl; cases plain)
    simp only [Shape.claims, found, found', Option.elim_some, names, name?, command, aliases]
  have problems := problems_of_sameBut shape (Registry.empty.after shape.claims 1 before) plain same
  rw [← problems_verdict found, ← problems_verdict found'] at problems
  have here : (shape.findings (before.length + 1) (shape.verdict _ arguments)).filter
        (!shape.concerns (before.length + 1) (· = field) ·) =
      (shape.findings (before.length + 1) (shape.verdict _ arguments')).filter
        (!shape.concerns (before.length + 1) (· = field) ·) :=
    filter_findings_congr (fun found => congrArg not (concerns_at found)) problems
  rw [findings_split lists, findings_split lists']
  simp only [List.filter_append, here, claims]

/-- Whatever changes in a declaration, nothing but collisions changes at the others. -/
theorem findings_elsewhere :
    (Catalog.ofText shape t).findings.filter
        (fun f => f.locator ≠ .record shape.artifact (before.length + 1) && !crosses f) =
      (Catalog.ofText shape t').findings.filter
        (fun f => f.locator ≠ .record shape.artifact (before.length + 1) && !crosses f) := by
  have here : ∀ verdict, (shape.findings (before.length + 1) verdict).filter
      (fun f => f.locator ≠ .record shape.artifact (before.length + 1) && !crosses f) = [] :=
    fun verdict => List.filter_eq_nil_iff.mpr fun f mem => by simp [locator_of_mem_findings mem]
  rw [findings_split lists, findings_split lists']
  generalize Registry.claimAll _ _ (shape.claims arguments) = taken
  generalize Registry.claimAll _ _ (shape.claims arguments') = taken'
  have later := runFindings_of_owners shape taken taken' (before.length + 2) after
  simp only [List.filter_append, here, ← List.filter_filter, later]

/-- A changed field with names changes nothing that is found in the fields without. -/
theorem findings_of_names (found : shape.declaration? arguments = some d)
    (found' : shape.declaration? arguments' = some d') (same : SameBut field d d') (names : field.hasNames = true) :
    (Catalog.ofText shape t).findings.filter (shape.concerns (before.length + 1) (!·.hasNames)) =
      (Catalog.ofText shape t').findings.filter (shape.concerns (before.length + 1) (!·.hasNames)) := by
  have problems := plain_problems_of_sameBut shape (Registry.empty.after shape.claims 1 before)
    (Registry.empty.after shape.claims 1 before) names same
  rw [← problems_verdict found, ← problems_verdict found'] at problems
  have here : (shape.findings (before.length + 1) (shape.verdict _ arguments)).filter
        (shape.concerns (before.length + 1) (!·.hasNames)) =
      (shape.findings (before.length + 1) (shape.verdict _ arguments')).filter
        (shape.concerns (before.length + 1) (!·.hasNames)) :=
    filter_findings_congr concerns_at problems
  have later : ∀ owners', (shape.runFindings (before.length + 2) owners' after).filter
      (shape.concerns (before.length + 1) (!·.hasNames)) = [] := by
    refine fun owners' => List.filter_eq_nil_iff.mpr fun f mem => ?_
    obtain ⟨k, -, place⟩ := locator_of_mem_runFindings mem
    simp [Shape.concerns, place]
    omega
  rw [findings_split lists, findings_split lists']
  simp only [List.filter_append, here, later]

end

end

/-- When one argument of a declaration is replaced, the findings stay the same in content and order, except for those
    about its field. If the field has no names, this holds for all other findings. If it has, it holds for those at
    other declarations that are not about names of earlier ones, and at the declaration for those about the fields
    without names. -/
theorem findings_of_replaced (shape : Shape) (nine : shape.arity = Command.arity) (field : Field) (argument : Text)
    {t t' : Text} {before after : List (List Text)} {arguments : List Text} (length : arguments.length = Command.arity)
    (lists : shape.argumentLists t = before ++ arguments :: after)
    (lists' : shape.argumentLists t' = before ++ arguments.set field.index argument :: after) :
    ∃ catalog catalog', Catalog.ofText? shape t = some catalog ∧ Catalog.ofText? shape t' = some catalog' ∧
      (field.hasNames = false →
        catalog.findings.filter (!shape.concerns (before.length + 1) (· = field) ·) =
          catalog'.findings.filter (!shape.concerns (before.length + 1) (· = field) ·)) ∧
      (field.hasNames = true →
        catalog.findings.filter (fun f => f.locator ≠ .record shape.artifact (before.length + 1) && !crosses f) =
          catalog'.findings.filter (fun f => f.locator ≠ .record shape.artifact (before.length + 1) && !crosses f) ∧
        catalog.findings.filter (shape.concerns (before.length + 1) (!·.hasNames)) =
          catalog'.findings.filter (shape.concerns (before.length + 1) (!·.hasNames))) := by
  refine ⟨_, _, ofText?_eq_some nine t, ofText?_eq_some nine t', ?_⟩
  obtain ⟨d, d', found, found', same⟩ := exists_sameBut nine length field argument
  exact ⟨findings_of_plain lists lists' found found' same, fun names =>
    ⟨findings_elsewhere lists lists', findings_of_names lists lists' found found' same names⟩⟩

/-- The arguments of a declaration with a bad flag, given its command and its permission. -/
def faulty (command permission : Text) : List Text :=
  [command, lit "\"\"", lit "\"B\"", lit "\"C\\d\"", lit "CommandCategory.D", lit "List.of()", lit "List.of(\"x\")", permission,
    lit "yes"]

def twoFaulty (command permission : Text) : Text :=
  lit "new CommandInfo(" ++ [','].intercalate (faulty command (lit "\"\"")) ++ lit "); new CommandInfo(" ++
    [','].intercalate (faulty (lit "\"/a\"") permission) ++ lit ")"

/-- A permission that becomes readable, and a command that becomes free. -/
theorem findings_twoFaulty : Shape.standard.arity = Command.arity ∧
    (faulty (lit "\"/a\"") (lit "\"\"")).length = Command.arity ∧
    (∃ catalog catalog',
      Shape.standard.argumentLists (twoFaulty (lit "\"/a\"") (lit "\"\"")) =
        [faulty (lit "\"/a\"") (lit "\"\"")] ++ faulty (lit "\"/a\"") (lit "\"\"") :: [] ∧
      Shape.standard.argumentLists (twoFaulty (lit "\"/a\"") (lit "\"p\"")) =
        [faulty (lit "\"/a\"") (lit "\"\"")] ++
          (faulty (lit "\"/a\"") (lit "\"\"")).set Field.permission.index (lit "\"p\"") :: [] ∧
      Catalog.ofText? .standard (twoFaulty (lit "\"/a\"") (lit "\"\"")) = some catalog ∧
      Catalog.ofText? .standard (twoFaulty (lit "\"/a\"") (lit "\"p\"")) = some catalog' ∧
      Field.permission.hasNames = false ∧
      catalog.findings.filter (!Shape.standard.concerns 2 (· = .permission) ·) =
        catalog'.findings.filter (!Shape.standard.concerns 2 (· = .permission) ·) ∧
      catalog.findings.map Finding.text = [
        lit "CommandCatalog[1]: unrecognized escape '\\d' in fullDesc",
        lit "CommandCatalog[1]: empty displayName",
        lit "CommandCatalog[1]: empty permission",
        lit "CommandCatalog[1]: requiresNation must be true or false: yes",
        lit "CommandCatalog[1]: example must start with '/': x",
        lit "CommandCatalog[2]: unrecognized escape '\\d' in fullDesc",
        lit "CommandCatalog[2]: duplicate command '/a' (first declared in #1)",
        lit "CommandCatalog[2]: empty displayName",
        lit "CommandCatalog[2]: empty permission",
        lit "CommandCatalog[2]: requiresNation must be true or false: yes",
        lit "CommandCatalog[2]: example must start with '/': x"] ∧
      catalog'.findings.map Finding.text =
        (catalog.findings.map Finding.text).eraseIdx 8) ∧
    ∃ catalog catalog',
      Shape.standard.argumentLists (twoFaulty (lit "\"/a\"") (lit "\"\"")) =
        [] ++ faulty (lit "\"/a\"") (lit "\"\"") :: [faulty (lit "\"/a\"") (lit "\"\"")] ∧
      Shape.standard.argumentLists (twoFaulty (lit "\"/b\"") (lit "\"\"")) =
        [] ++ (faulty (lit "\"/a\"") (lit "\"\"")).set Field.command.index (lit "\"/b\"") ::
          [faulty (lit "\"/a\"") (lit "\"\"")] ∧
      Catalog.ofText? .standard (twoFaulty (lit "\"/a\"") (lit "\"\"")) = some catalog ∧
      Catalog.ofText? .standard (twoFaulty (lit "\"/b\"") (lit "\"\"")) = some catalog' ∧
      Field.command.hasNames = true ∧
      catalog.findings.filter (fun f => f.locator ≠ .record (lit "CommandCatalog") 1 && !crosses f) =
        catalog'.findings.filter (fun f => f.locator ≠ .record (lit "CommandCatalog") 1 && !crosses f) ∧
      catalog.findings.filter (Shape.standard.concerns 1 (!·.hasNames)) =
        catalog'.findings.filter (Shape.standard.concerns 1 (!·.hasNames)) ∧
      catalog'.findings.map Finding.text = (catalog.findings.map Finding.text).eraseIdx 6 := by
  have length : (faulty (lit "\"/a\"") (lit "\"\"")).length = Command.arity := rfl
  have lists : Shape.standard.argumentLists (twoFaulty (lit "\"/a\"") (lit "\"\"")) =
      [faulty (lit "\"/a\"") (lit "\"\""), faulty (lit "\"/a\"") (lit "\"\"")] := by
    decide +kernel
  have permission : Shape.standard.argumentLists (twoFaulty (lit "\"/a\"") (lit "\"p\"")) =
      [faulty (lit "\"/a\"") (lit "\"\"")] ++
        (faulty (lit "\"/a\"") (lit "\"\"")).set Field.permission.index (lit "\"p\"") :: [] := by
    decide +kernel
  have command : Shape.standard.argumentLists (twoFaulty (lit "\"/b\"") (lit "\"\"")) =
      [] ++ (faulty (lit "\"/a\"") (lit "\"\"")).set Field.command.index (lit "\"/b\"") ::
        [faulty (lit "\"/a\"") (lit "\"\"")] := by
    decide +kernel
  obtain ⟨catalog, changed, made, made', plain, -⟩ :=
    findings_of_replaced .standard rfl .permission (lit "\"p\"") length lists permission
  obtain ⟨catalog₂, changed₂, made₂, made₂', -, names⟩ :=
    findings_of_replaced .standard rfl .command (lit "\"/b\"") length lists command
  let texts : Catalog → List Text := fun catalog => catalog.findings.map Finding.text
  refine ⟨rfl, length, ⟨catalog, changed, lists, permission, made, made', rfl, plain rfl, ?_, ?_⟩,
    catalog₂, changed₂, lists, command, made₂, made₂', rfl, (names rfl).1, (names rfl).2, ?_⟩
  · refine Option.some.inj ((congrArg (Option.map texts) made).symm.trans ?_)
    decide +kernel
  · have erased : (Catalog.ofText? .standard (twoFaulty (lit "\"/a\"") (lit "\"p\""))).map texts =
        ((Catalog.ofText? .standard (twoFaulty (lit "\"/a\"") (lit "\"\""))).map texts).map (·.eraseIdx 8) := by
      decide +kernel
    rw [made, made'] at erased
    exact Option.some.inj erased
  · have erased : (Catalog.ofText? .standard (twoFaulty (lit "\"/b\"") (lit "\"\""))).map texts =
        ((Catalog.ofText? .standard (twoFaulty (lit "\"/a\"") (lit "\"\""))).map texts).map (·.eraseIdx 6) := by
      decide +kernel
    rw [made₂, made₂'] at erased
    exact Option.some.inj erased

end PluginAudit.Command
