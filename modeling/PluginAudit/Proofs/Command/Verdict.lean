import PluginAudit.Command.Catalog
import PluginAudit.Proofs.Registry
import Mathlib.Data.List.Nodup

/-!
# Verdicts on declarations

The verdict on a declaration depends on its arguments and on the owners of the names claimed before it
(`verdicts_getElem?`), and the owner of a name is the first declaration that claims it (`Registry.owner?_after`).
-/
namespace PluginAudit.Command
open Declaration

section
variable {shape : Shape} {owners : Registry} {d : Declaration} {p : Problem}

theorem declaration?_eq_some_iff {shape : Shape} (nine : shape.arity = Command.arity) {arguments : List Text}
    {d : Declaration} : shape.declaration? arguments = some d ↔
      arguments = [d.command, d.displayName, d.shortDesc, d.fullDesc, d.category, d.aliases, d.examples,
        d.permission, d.requiresNation] := by
  rw [Shape.declaration?, nine, Command.arity]
  constructor
  · intro found
    split at found
    next length =>
      unfold ofArguments? at found
      split at found
      next command displayName shortDesc fullDesc category aliases examples permission flag rest =>
        obtain rfl := Option.some.inj found
        simp only [List.length_cons] at length
        have none : rest = [] := List.eq_nil_of_length_eq_zero (by omega)
        rw [none]
      next => cases found
    next => cases found
  · rintro rfl
    rfl

theorem exists_ofArguments? {arguments : List Text} (length : arguments.length = Command.arity) :
    ∃ d, ofArguments? arguments = some d := by
  match arguments, length with
  | [_, _, _, _, _, _, _, _, _], _ => exact ⟨_, rfl⟩

theorem exists_declaration? (nine : shape.arity = Command.arity) {arguments : List Text}
    (length : arguments.length = Command.arity) : ∃ d, shape.declaration? arguments = some d := by
  rw [Shape.declaration?, if_pos (length.trans nine.symm)]
  exact exists_ofArguments? length

/-- The errors of a declaration, field by field. -/
def Declaration.errors (shape : Shape) (owners : Registry) (d : Declaration) : List Problem :=
  d.commandProblems owners ++
    textProblems (lit "displayName") d.displayName ++
    textProblems (lit "shortDesc") d.shortDesc ++
    textProblems (lit "fullDesc") d.fullDesc ++
    d.categoryProblems shape ++
    d.permissionProblems ++
    d.flagProblems ++
    aliasesProblems owners (value? d.command) [] (Code.literalValues d.aliases) ++
    d.exampleProblems

theorem problems_eq (shape : Shape) (owners : Registry) (d : Declaration) :
    d.problems shape owners = d.escapeProblems ++ (d.errors shape owners).map fun problem => (.error, problem) := rfl

theorem warning_of_mem_escapeProblems {found : Severity × Problem} (mem : found ∈ d.escapeProblems) :
    ∃ field c, found = (.warning, .unrecognizedEscape field c) := by
  have each : ∀ field literals, found ∈ escapeWarnings field literals →
      ∃ field c, found = (.warning, .unrecognizedEscape field c) := by
    intro field literals mem
    obtain ⟨c, -, rfl⟩ := List.mem_map.mp mem
    exact ⟨field, c, rfl⟩
  simp only [escapeProblems, List.mem_append] at mem
  rcases mem with (((((mem | mem) | mem) | mem) | mem) | mem) | mem <;> exact each _ _ mem

theorem mem_commandProblems (mem : p ∈ d.commandProblems owners) : d.name? = none ∧ p = .unreadableCommand ∨
    ∃ command, d.name? = some command ∧
      (p = .commandStart command ∨ ∃ first, owners.owner? command = some first ∧ p = .duplicateCommand command first) := by
  rw [commandProblems] at mem
  cases named : d.name? with
  | none =>
    rw [named] at mem
    exact .inl ⟨rfl, List.mem_singleton.mp mem⟩
  | some command =>
    rw [named] at mem
    refine .inr ⟨command, rfl, ?_⟩
    rcases List.mem_append.mp mem with mem | mem
    · split at mem
      · cases mem
      · exact .inl (List.mem_singleton.mp mem)
    · obtain ⟨first, owned, rfl⟩ := List.mem_map.mp mem
      exact .inr ⟨first, Option.mem_toList.mp owned, rfl⟩

theorem mem_aliasProblems {command? : Option Text} {before : List Text} {name : Text}
    (mem : p ∈ aliasProblems owners command? before name) :
    p = .aliasStart name ∨ p = .aliasIsCommand name ∨ p = .duplicateAlias name ∨
      ∃ first, owners.owner? name = some first ∧ p = .aliasCollision name first := by
  simp only [aliasProblems, List.mem_append, List.mem_ite_nil_left, List.mem_ite_nil_right, List.mem_singleton,
    List.mem_map, Option.mem_toList] at mem
  rcases mem with ((⟨-, rfl⟩ | ⟨-, rfl⟩) | ⟨-, rfl⟩) | ⟨first, owned, rfl⟩
  · exact .inl rfl
  · exact .inr (.inl rfl)
  · exact .inr (.inr (.inl rfl))
  · exact .inr (.inr (.inr ⟨first, owned, rfl⟩))

theorem mem_aliasesProblems {command? : Option Text} {before names : List Text}
    (mem : p ∈ aliasesProblems owners command? before names) :
    ∃ before', ∃ name ∈ names, p ∈ aliasProblems owners command? before' name := by
  induction names generalizing before with
  | nil => cases mem
  | cons name names ih =>
    rcases List.mem_append.mp mem with mem | mem
    · exact ⟨before, name, List.mem_cons_self, mem⟩
    · obtain ⟨before', other, listed, mem⟩ := ih mem
      exact ⟨before', other, List.mem_cons_of_mem name listed, mem⟩

/-- The names that the arguments of a call claim; arguments of another number claim none. -/
def Shape.claims (shape : Shape) (arguments : List Text) : List Text :=
  (shape.declaration? arguments).elim [] Declaration.names

theorem names_verdict (arguments : List Text) : (shape.verdict owners arguments).names = shape.claims arguments := by
  rw [Shape.verdict, Shape.claims]
  cases shape.declaration? arguments <;> rfl

/-- The verdict on a declaration is given with the names of those before it taken. -/
theorem verdicts_getElem? (index : Nat) (lists : List (List Text)) (k : Nat) :
    (shape.verdicts index owners lists)[k]? = lists[k]?.map fun arguments =>
      (index + k, shape.verdict (owners.after shape.claims index (lists.take k)) arguments) := by
  induction lists generalizing index owners k with
  | nil => simp [Shape.verdicts]
  | cons arguments lists ih =>
    rw [Shape.verdicts]
    cases k with
    | zero => simp [Registry.after]
    | succ k =>
      simp only [List.getElem?_cons_succ, List.take_succ_cons, Registry.after, ih, names_verdict]
      rw [Nat.add_assoc, Nat.add_comm 1 k]

theorem exists_of_mem_verdicts {lists : List (List Text)} {index : Nat} {entry : Nat × Verdict}
    (mem : entry ∈ shape.verdicts index owners lists) :
    ∃ owners', ∃ arguments ∈ lists, entry.2 = shape.verdict owners' arguments := by
  obtain ⟨k, found⟩ := List.mem_iff_getElem?.mp mem
  rw [verdicts_getElem?, Option.map_eq_some_iff] at found
  obtain ⟨arguments, found, rfl⟩ := found
  exact ⟨_, arguments, List.mem_of_getElem? found, rfl⟩

theorem verdicts_append (index : Nat) (owners : Registry) (before after : List (List Text)) :
    shape.verdicts index owners (before ++ after) = shape.verdicts index owners before ++
      shape.verdicts (index + before.length) (owners.after shape.claims index before) after := by
  induction before generalizing index owners with
  | nil => rfl
  | cons arguments before ih =>
    have shift : index + 1 + before.length = index + (before.length + 1) := by omega
    simp only [List.cons_append, Shape.verdicts, Registry.after, ih, names_verdict, List.length_cons, shift]

/-- What a run over declarations finds, the first of which has a given number. -/
def Shape.runFindings (shape : Shape) (index : Nat) (owners : Registry) (lists : List (List Text)) : List Finding :=
  (shape.verdicts index owners lists).flatMap fun (i, verdict) => shape.findings i verdict

theorem runFindings_cons (index : Nat) (arguments : List Text) (lists : List (List Text)) :
    shape.runFindings index owners (arguments :: lists) = shape.findings index (shape.verdict owners arguments) ++
      shape.runFindings (index + 1) (owners.claimAll index (shape.claims arguments)) lists := by
  rw [Shape.runFindings, Shape.verdicts, List.flatMap_cons, names_verdict]
  rfl

theorem runFindings_append (index : Nat) (before after : List (List Text)) :
    shape.runFindings index owners (before ++ after) = shape.runFindings index owners before ++
      shape.runFindings (index + before.length) (owners.after shape.claims index before) after := by
  rw [Shape.runFindings, verdicts_append, List.flatMap_append]
  rfl

theorem locator_of_mem_findings {index : Nat} {verdict : Verdict} {f : Finding} (mem : f ∈ shape.findings index verdict) :
    f.locator = .record shape.artifact index := by
  obtain ⟨_, -, rfl⟩ := List.mem_map.mp mem
  rfl

theorem locator_of_mem_runFindings {index : Nat} {lists : List (List Text)} {f : Finding}
    (mem : f ∈ shape.runFindings index owners lists) :
    ∃ k < lists.length, f.locator = .record shape.artifact (index + k) := by
  obtain ⟨entry, listed, found⟩ := List.mem_flatMap.mp mem
  obtain ⟨k, at?⟩ := List.mem_iff_getElem?.mp listed
  rw [verdicts_getElem?, Option.map_eq_some_iff] at at?
  obtain ⟨arguments, at?, rfl⟩ := at?
  exact ⟨k, (List.getElem?_eq_some_iff.mp at?).1, locator_of_mem_findings found⟩

/-- What a run finds at the declaration of a given number is what the verdict on that declaration says. -/
theorem runFindings_at {index k : Nat} {lists : List (List Text)} {arguments : List Text}
    (at? : lists[k]? = some arguments) :
    (shape.runFindings index owners lists).filter (·.locator = .record shape.artifact (index + k)) =
      shape.findings (index + k) (shape.verdict (owners.after shape.claims index (lists.take k)) arguments) := by
  obtain ⟨bound, rfl⟩ := List.getElem?_eq_some_iff.mp at?
  have split : lists = lists.take k ++ lists[k] :: lists.drop (k + 1) := by simp
  have size : (lists.take k).length = k := List.length_take_of_le (Nat.le_of_lt bound)
  have before : (shape.runFindings index owners (lists.take k)).filter
      (·.locator = .record shape.artifact (index + k)) = [] := by
    refine List.filter_eq_nil_iff.mpr fun f mem => ?_
    obtain ⟨n, lt, place⟩ := locator_of_mem_runFindings mem
    simp [place]
    omega
  have after : ∀ owners', (shape.runFindings (index + k + 1) owners' (lists.drop (k + 1))).filter
      (·.locator = .record shape.artifact (index + k)) = [] := by
    refine fun owners' => List.filter_eq_nil_iff.mpr fun f mem => ?_
    obtain ⟨n, -, place⟩ := locator_of_mem_runFindings mem
    simp [place]
    omega
  have here : ∀ verdict, (shape.findings (index + k) verdict).filter
      (·.locator = .record shape.artifact (index + k)) = shape.findings (index + k) verdict :=
    fun verdict => List.filter_eq_self.mpr fun f mem => by simp [locator_of_mem_findings mem]
  conv => lhs; rw [split]
  rw [runFindings_append, size, runFindings_cons, List.filter_append, List.filter_append, before, after, here,
    List.nil_append, List.append_nil]

theorem ofText?_eq_some (nine : shape.arity = Command.arity) (t : Text) :
    Catalog.ofText? shape t = some (Catalog.ofText shape t) := by
  have applies : Catalog.applies shape t := by
    refine List.all_eq_true.mpr fun arguments _ => ?_
    by_cases length : arguments.length = shape.arity
    · obtain ⟨d, found⟩ := exists_ofArguments? (length.trans nine)
      simp [found]
    · simp [length]
  rw [Catalog.ofText?, if_pos applies]

theorem ofText_of_declared {t : Text} (declared : shape.argumentLists t ≠ []) :
    Catalog.ofText shape t = Catalog.ofVerdicts shape (shape.verdicts 1 .empty (shape.argumentLists t)) := by
  rw [Catalog.ofText]
  split
  next none => exact absurd none declared
  next => rfl

theorem findings_of_declared {t : Text} (declared : shape.argumentLists t ≠ []) :
    (Catalog.ofText shape t).findings = shape.runFindings 1 .empty (shape.argumentLists t) := by
  rw [ofText_of_declared declared]
  rfl

end
end PluginAudit.Command
