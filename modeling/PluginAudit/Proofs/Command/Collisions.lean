import PluginAudit.Proofs.Command.Verdict
import Mathlib.Data.List.Count

/-!
# Collisions of names

Commands and aliases share one space of names, in which a name belongs to the first declaration that has it
(`FirstOwner`). Each later use is reported against that declaration, once for a command and once for every
occurrence among the aliases (`count_collisions`).
-/
namespace PluginAudit.Command
open Declaration

section
variable (shape : Shape) (t : Text)

/-- The declaration of a given number, counted from one, if it has the right number of arguments. -/
def Shape.declarationAt (j : Nat) : Option Declaration :=
  if j = 0 then none else (shape.argumentLists t)[j - 1]?.bind shape.declaration?

def Shape.commandAt (j : Nat) : Option Text := (shape.declarationAt t j).bind Declaration.name?

def Shape.valueAt (j : Nat) : Option Text := (shape.declarationAt t j).bind fun d => value? d.command

def Shape.aliasesAt (j : Nat) : List Text := (shape.declarationAt t j).elim [] fun d => Code.literalValues d.aliases

/-- The declaration of a given number has a name, as its command or among its aliases. -/
def Shape.HasName (j : Nat) (name : Text) : Prop := shape.commandAt t j = some name ∨ name ∈ shape.aliasesAt t j

/-- A name has an owner before a declaration: the least number of a declaration that has the name. -/
def Shape.FirstOwner (j : Nat) (name : Text) (f : Nat) : Prop :=
  f < j ∧ shape.HasName t f name ∧ ∀ i < f, ¬ shape.HasName t i name

instance (j : Nat) (name : Text) : Decidable (shape.HasName t j name) :=
  inferInstanceAs (Decidable (shape.commandAt t j = some name ∨ name ∈ shape.aliasesAt t j))

instance (j : Nat) (name : Text) (f : Nat) : Decidable (shape.FirstOwner t j name f) :=
  inferInstanceAs (Decidable (f < j ∧ shape.HasName t f name ∧ ∀ i < f, ¬ shape.HasName t i name))

end

section
variable {shape : Shape} {t : Text} {owners : Registry} {d : Declaration}

theorem declarationAt_succ (k : Nat) :
    shape.declarationAt t (k + 1) = (shape.argumentLists t)[k]?.bind shape.declaration? := by
  rw [Shape.declarationAt, if_neg (Nat.succ_ne_zero k), Nat.add_sub_cancel]

theorem not_hasName_zero (name : Text) : ¬ shape.HasName t 0 name := by
  simp [Shape.HasName, Shape.commandAt, Shape.aliasesAt, Shape.declarationAt]

/-- A declaration has the names that its arguments claim. -/
theorem hasName_succ_iff {k : Nat} {name : Text} : shape.HasName t (k + 1) name ↔
    ∃ arguments, (shape.argumentLists t)[k]? = some arguments ∧ name ∈ shape.claims arguments := by
  rw [Shape.HasName, Shape.commandAt, Shape.aliasesAt, declarationAt_succ]
  cases (shape.argumentLists t)[k]? with
  | none => simp
  | some arguments =>
    rw [Option.bind_some]
    cases found : shape.declaration? arguments with
    | none => simp [Shape.claims, found]
    | some d => simp [Shape.claims, found, Declaration.names]

/-- The owners of names when a declaration is checked. -/
def Shape.ownersBefore (shape : Shape) (t : Text) (j : Nat) : Registry :=
  Registry.empty.after shape.claims 1 ((shape.argumentLists t).take (j - 1))

theorem declarationAt_ne_zero {j : Nat} (found : shape.declarationAt t j = some d) : j ≠ 0 := by
  rintro rfl
  simp [Shape.declarationAt] at found

/-- After the declarations before a given one, names belong to their first owners. -/
theorem owner?_ownersBefore {j f : Nat} (declared : j ≠ 0) {name : Text} :
    (shape.ownersBefore t j).owner? name = some f ↔ shape.FirstOwner t j name f := by
  obtain ⟨k, rfl⟩ := Nat.exists_eq_succ_of_ne_zero declared
  rw [Shape.ownersBefore, Nat.succ_sub_one, Registry.owner?_after, Registry.owner?_empty, Option.none_or,
    Registry.firstClaim?_eq_some_iff]
  constructor
  · rintro ⟨i, arguments, rfl, found, mem, least⟩
    rw [List.getElem?_take] at found
    split at found
    next before =>
      refine ⟨by omega, ?_, fun n bound has => ?_⟩
      · rw [Nat.add_comm]
        exact hasName_succ_iff.mpr ⟨arguments, found, mem⟩
      · cases n with
        | zero => exact not_hasName_zero name has
        | succ n =>
          obtain ⟨earlier, at?, mem⟩ := hasName_succ_iff.mp has
          refine least n (by omega) earlier ?_ mem
          rw [List.getElem?_take_of_lt (by omega)]
          exact at?
    next => cases found
  · rintro ⟨before, has, least⟩
    cases f with
    | zero => exact absurd has (not_hasName_zero name)
    | succ f =>
      obtain ⟨arguments, found, mem⟩ := hasName_succ_iff.mp has
      refine ⟨f, arguments, by omega, ?_, mem, fun i bound earlier at? mem => ?_⟩
      · rw [List.getElem?_take_of_lt (by omega)]
        exact found
      · rw [List.getElem?_take_of_lt (by omega)] at at?
        exact least (i + 1) (by omega) (hasName_succ_iff.mpr ⟨earlier, at?, mem⟩)

/-- The problems that a declaration can have with its names: not how they are written, but that they
    are taken or repeated. -/
def Problem.Collides : Problem → Prop
  | .duplicateCommand .. | .aliasIsCommand .. | .duplicateAlias .. | .aliasCollision .. => True
  | _ => False

/-- Only the command and the aliases collide. -/
theorem count_errors {p : Problem} (collides : p.Collides) : (d.errors shape owners).count p =
    (d.commandProblems owners).count p +
      (aliasesProblems owners (value? d.command) [] (Code.literalValues d.aliases)).count p := by
  have other : ∀ problems : List Problem, (∀ q ∈ problems, ¬ q.Collides) → problems.count p = 0 :=
    fun problems none => List.count_eq_zero_of_not_mem fun mem => none p mem collides
  have single : ∀ (passes : Bool) (q : Problem), ¬ q.Collides → (if passes then [] else [q]).count p = 0 := by
    intro passes q apart
    refine other _ fun r mem => ?_
    cases passes
    · rw [List.mem_singleton.mp mem]
      exact apart
    · simp at mem
  have text : ∀ field argument, (textProblems field argument).count p = 0 := fun field _ =>
    single _ (.emptyField field) id
  have category : (d.categoryProblems shape).count p = 0 := single _ (.missingCategory d.category) id
  have permission : d.permissionProblems.count p = 0 := single _ .emptyPermission id
  have flag : d.flagProblems.count p = 0 := single _ (.invalidFlag d.requiresNation) id
  have example? : d.exampleProblems.count p = 0 := by
    refine other _ fun q mem => ?_
    obtain ⟨usage, -, rfl⟩ := List.mem_map.mp mem
    exact id
  simp only [errors, List.count_append, text, category, permission, flag, example?]
  omega

/-- Warnings do not collide, so all that collides is an error. -/
theorem count_problems (p : Problem) :
    (d.problems shape owners).count (.error, p) = (d.errors shape owners).count p := by
  have warnings : d.escapeProblems.count (.error, p) = 0 := by
    refine List.count_eq_zero_of_not_mem fun mem => ?_
    obtain ⟨field, c, eq⟩ := warning_of_mem_escapeProblems mem
    cases eq
  rw [problems_eq, List.count_append, warnings, Nat.zero_add]
  exact List.count_map_of_injective _ _ (fun _ _ eq => (Prod.mk.inj eq).2) p

theorem nodup_commandProblems : (d.commandProblems owners).Nodup := by
  rw [commandProblems]
  cases d.name? with
  | none => simp
  | some command =>
    dsimp only
    cases owners.owner? command <;> split <;> simp

theorem count_commandProblems (c : Text) (f : Nat) : (d.commandProblems owners).count (.duplicateCommand c f) =
    if d.name? = some c ∧ owners.owner? c = some f then 1 else 0 := by
  have mem : .duplicateCommand c f ∈ d.commandProblems owners ↔ d.name? = some c ∧ owners.owner? c = some f := by
    rw [commandProblems]
    cases d.name? with
    | none => simp
    | some command =>
      simp only [List.mem_append, List.mem_map, Option.mem_toList, Option.some.injEq, Problem.duplicateCommand.injEq]
      constructor
      · rintro (start | ⟨first, owned, rfl, rfl⟩)
        · split at start <;> simp at start
        · exact ⟨rfl, owned⟩
      · rintro ⟨rfl, owned⟩
        exact .inr ⟨f, owned, rfl, rfl⟩
  rw [nodup_commandProblems.count]
  exact if_congr mem rfl rfl

theorem count_commandProblems_eq_zero {p : Problem} (notCommand : ∀ c f, p ≠ .duplicateCommand c f)
    (collides : p.Collides) : (d.commandProblems owners).count p = 0 := by
  refine List.count_eq_zero_of_not_mem fun mem => ?_
  rcases mem_commandProblems mem with ⟨-, rfl⟩ | ⟨command, -, rfl | ⟨first, -, rfl⟩⟩
  · exact collides
  · exact collides
  · exact notCommand command first rfl

section
variable {command? : Option Text} {before names : List Text} {name a : Text}

theorem nodup_aliasProblems : (aliasProblems owners command? before name).Nodup := by
  rw [aliasProblems]
  cases owners.owner? name <;> split <;> split <;> split <;> simp

theorem mem_aliasProblems_aliasCollision {f : Nat} :
    .aliasCollision a f ∈ aliasProblems owners command? before name ↔ name = a ∧ owners.owner? a = some f := by
  simp only [aliasProblems, List.mem_append, List.mem_ite_nil_right, List.mem_ite_nil_left, List.mem_singleton,
    List.mem_map, Option.mem_toList, Problem.aliasCollision.injEq, reduceCtorEq, and_false, false_or, or_false]
  constructor
  · rintro ⟨first, owned, rfl, rfl⟩
    exact ⟨rfl, owned⟩
  · rintro ⟨rfl, owned⟩
    exact ⟨f, owned, rfl, rfl⟩

theorem mem_aliasProblems_aliasIsCommand :
    .aliasIsCommand a ∈ aliasProblems owners command? before name ↔ name = a ∧ command? = some a := by
  simp only [aliasProblems, List.mem_append, List.mem_ite_nil_right, List.mem_ite_nil_left, List.mem_singleton,
    List.mem_map, Problem.aliasIsCommand.injEq, reduceCtorEq, and_false, false_or, or_false, exists_false]
  constructor
  · rintro ⟨command, rfl⟩
    exact ⟨rfl, command⟩
  · rintro ⟨rfl, command⟩
    exact ⟨command, rfl⟩

theorem mem_aliasProblems_duplicateAlias :
    .duplicateAlias a ∈ aliasProblems owners command? before name ↔ name = a ∧ a ∈ before := by
  simp only [aliasProblems, List.mem_append, List.contains_eq_mem, List.mem_ite_nil_right, List.mem_ite_nil_left,
    List.mem_singleton, List.mem_map, Problem.duplicateAlias.injEq, reduceCtorEq, and_false, false_or, or_false,
    exists_false]
  constructor
  · rintro ⟨seen, rfl⟩
    exact ⟨rfl, by simpa using seen⟩
  · rintro ⟨rfl, seen⟩
    exact ⟨by simpa using seen, rfl⟩

/-- A problem that an alias has whenever it is a given name, on a condition that the aliases before it
    do not change, occurs as often as the name. -/
theorem count_aliasesProblems {p : Problem} {c : Prop} [Decidable c]
    (each : ∀ before name, p ∈ aliasProblems owners command? before name ↔ name = a ∧ c) :
    (aliasesProblems owners command? before names).count p = if c then names.count a else 0 := by
  induction names generalizing before with
  | nil => simp [aliasesProblems]
  | cons name names ih =>
    have step : (aliasProblems owners command? before name).count p = if name = a ∧ c then 1 else 0 := by
      rw [nodup_aliasProblems.count]
      exact if_congr (each before name) rfl rfl
    rw [aliasesProblems, List.count_append, ih, step, List.count_cons]
    by_cases holds : c
    · by_cases same : name = a
      · simp [same, holds, Nat.add_comm]
      · simp [same, holds]
    · simp [holds]

/-- An alias is reported as repeated wherever it occurs, except the first time. -/
theorem count_duplicateAlias (a : Text) :
    (aliasesProblems owners command? before names).count (.duplicateAlias a) =
      if a ∈ before then names.count a else names.count a - 1 := by
  induction names generalizing before with
  | nil => simp [aliasesProblems]
  | cons name names ih =>
    rw [aliasesProblems, List.count_append, ih, nodup_aliasProblems.count,
      if_congr mem_aliasProblems_duplicateAlias rfl rfl, List.count_cons]
    by_cases same : name = a
    · subst same
      by_cases seen : name ∈ before
      · simp [seen, Nat.add_comm]
      · simp [seen]
    · simp [same, Ne.symm same]

end

theorem count_findings_eq_zero {lists : List (List Text)} {index j : Nat} (absent : ∀ k < lists.length, index + k ≠ j)
    (p : Problem) :
    (shape.runFindings index owners lists).count (.error (.record shape.artifact j) (.catalog p)) = 0 := by
  refine List.count_eq_zero_of_not_mem fun mem => ?_
  obtain ⟨k, bound, place⟩ := locator_of_mem_runFindings mem
  exact absent k bound (Locator.record.inj place).2.symm

theorem count_findings {lists : List (List Text)} {arguments : List Text} {k : Nat} (at? : lists[k]? = some arguments)
    (index : Nat) (p : Problem) :
    (shape.runFindings index owners lists).count (.error (.record shape.artifact (index + k)) (.catalog p)) =
      (shape.verdict (owners.after shape.claims index (lists.take k)) arguments).problems.count (.error, p) := by
  have injective : Function.Injective fun found : Severity × Problem =>
      (⟨found.1, .record shape.artifact (index + k), .catalog found.2⟩ : Finding) := by
    rintro ⟨severity, problem⟩ ⟨severity', problem'⟩ eq
    simpa using eq
  have here := List.count_filter (p := (·.locator = .record shape.artifact (index + k)))
    (a := Finding.error (.record shape.artifact (index + k)) (.catalog p)) (l := shape.runFindings index owners lists)
    (decide_eq_true rfl)
  rw [← here, runFindings_at at?]
  exact List.count_map_of_injective _ _ injective (.error, p)

theorem count_ofText {p : Problem} (collides : p.Collides) (j : Nat) :
    (Catalog.ofText shape t).findings.count (.error (.record shape.artifact j) (.catalog p)) =
      (shape.declarationAt t j).elim 0 fun d =>
        (d.commandProblems (shape.ownersBefore t j)).count p +
          (aliasesProblems (shape.ownersBefore t j) (value? d.command) [] (Code.literalValues d.aliases)).count p := by
  by_cases declared : shape.argumentLists t = []
  · have none : shape.declarationAt t j = none := by simp [Shape.declarationAt, declared]
    simp [Catalog.ofText, declared, none, Finding.error]
  · rw [findings_of_declared declared]
    cases j with
    | zero => exact count_findings_eq_zero (by omega) p
    | succ k =>
      rw [declarationAt_succ, Nat.add_comm k 1]
      cases at? : (shape.argumentLists t)[k]? with
      | none =>
        have short := List.getElem?_eq_none_iff.mp at?
        exact count_findings_eq_zero (by omega) p
      | some arguments =>
        rw [count_findings at?]
        simp only [Option.bind_some, Shape.verdict]
        cases shape.declaration? arguments with
        | none =>
          refine List.count_eq_zero_of_not_mem fun mem => ?_
          obtain ⟨-, rfl⟩ := Prod.mk.inj (List.mem_singleton.mp mem)
          exact collides
        | some d =>
          rw [Option.elim_some, count_problems, count_errors collides, Shape.ownersBefore, Nat.add_comm 1 k,
            Nat.add_sub_cancel]

/-- Every collision of names is reported at the declaration that makes it and against the first owner
    of the name, and nothing else is reported as a collision. -/
theorem count_collisions (shape : Shape) (nine : shape.arity = Command.arity) (t : Text) :
    ∃ catalog, Catalog.ofText? shape t = some catalog ∧ ∀ j,
      (∀ c f, catalog.findings.count (.error (.record shape.artifact j) (.catalog (.duplicateCommand c f))) =
        if shape.commandAt t j = some c ∧ shape.FirstOwner t j c f then 1 else 0) ∧
      (∀ a f, catalog.findings.count (.error (.record shape.artifact j) (.catalog (.aliasCollision a f))) =
        if shape.FirstOwner t j a f then (shape.aliasesAt t j).count a else 0) ∧
      (∀ a, catalog.findings.count (.error (.record shape.artifact j) (.catalog (.aliasIsCommand a))) =
        if shape.valueAt t j = some a then (shape.aliasesAt t j).count a else 0) ∧
      (∀ a, catalog.findings.count (.error (.record shape.artifact j) (.catalog (.duplicateAlias a))) =
        (shape.aliasesAt t j).count a - 1) := by
  refine ⟨_, ofText?_eq_some nine t, fun j => ⟨fun c f => ?_, fun a f => ?_, fun a => ?_, fun a => ?_⟩⟩
  · rw [count_ofText (p := .duplicateCommand c f) trivial, Shape.commandAt]
    cases found : shape.declarationAt t j with
    | none => simp
    | some d =>
      have quiet : (aliasesProblems (shape.ownersBefore t j) (value? d.command) []
          (Code.literalValues d.aliases)).count (.duplicateCommand c f) = 0 :=
        count_aliasesProblems (a := c) (c := False) (by simp [aliasProblems])
      rw [Option.elim_some, count_commandProblems, quiet, Nat.add_zero, Option.bind_some]
      exact if_congr (and_congr_right fun _ => owner?_ownersBefore (declarationAt_ne_zero found)) rfl rfl
  · rw [count_ofText (p := .aliasCollision a f) trivial, Shape.aliasesAt]
    cases found : shape.declarationAt t j with
    | none => simp
    | some d =>
      rw [Option.elim_some, count_commandProblems_eq_zero (p := .aliasCollision a f) (by simp) trivial, Nat.zero_add,
        count_aliasesProblems fun _ _ => mem_aliasProblems_aliasCollision]
      exact if_congr (owner?_ownersBefore (declarationAt_ne_zero found)) rfl rfl
  · rw [count_ofText (p := .aliasIsCommand a) trivial, Shape.aliasesAt, Shape.valueAt]
    cases shape.declarationAt t j with
    | none => simp
    | some d =>
      rw [Option.elim_some, count_commandProblems_eq_zero (p := .aliasIsCommand a) (by simp) trivial, Nat.zero_add]
      exact count_aliasesProblems fun _ _ => mem_aliasProblems_aliasIsCommand
  · rw [count_ofText (p := .duplicateAlias a) trivial, Shape.aliasesAt]
    cases shape.declarationAt t j with
    | none => simp
    | some d =>
      rw [Option.elim_some, count_commandProblems_eq_zero (p := .duplicateAlias a) (by simp) trivial, Nat.zero_add,
        count_duplicateAlias]
      rfl

/-- Two declarations without texts, of which the second uses both names of the first again. -/
def crossed : Text :=
  lit "new CommandInfo(\"/a\",\"\",\"\",\"\",C.D,List.of(\"/b\"),List.of(),\"p\",true)" ++
  lit "new CommandInfo(\"/b\",\"\",\"\",\"\",C.D,List.of(\"/a\",\"/b\",\"/a\"),List.of(),\"p\",true)"

theorem count_crossed : Shape.standard.arity = Command.arity ∧ ∃ catalog,
    Catalog.ofText? .standard crossed = some catalog ∧
    catalog.findings.count (.error (.record (lit "CommandCatalog") 2) (.catalog (.duplicateCommand (lit "/b") 1))) = 1 ∧
    catalog.findings.count (.error (.record (lit "CommandCatalog") 2) (.catalog (.aliasCollision (lit "/a") 1))) = 2 ∧
    catalog.findings.count (.error (.record (lit "CommandCatalog") 2) (.catalog (.aliasIsCommand (lit "/b")))) = 1 ∧
    catalog.findings.count (.error (.record (lit "CommandCatalog") 2) (.catalog (.duplicateAlias (lit "/a")))) = 1 := by
  obtain ⟨catalog, made, counts⟩ := count_collisions .standard rfl crossed
  obtain ⟨commands, collisions, own, repeated⟩ := counts 2
  refine ⟨rfl, catalog, made, ?_, ?_, ?_, ?_⟩
  · exact (commands (lit "/b") 1).trans (by decide +kernel)
  · exact (collisions (lit "/a") 1).trans (by decide +kernel)
  · exact (own (lit "/b")).trans (by decide +kernel)
  · exact (repeated (lit "/a")).trans (by decide +kernel)

end
end PluginAudit.Command
