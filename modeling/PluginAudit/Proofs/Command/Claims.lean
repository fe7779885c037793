import PluginAudit.Proofs.Command.Verdict

/-!
# Names claimed on the way

A declaration can claim its names on the way: its command, then each alias when it comes to it. So it meets names
that it owns itself, and has to pass over them. Where it owns no name beforehand, it finds what is found when all
names are looked up before any is claimed, and leaves the same owners (`claim_eq`).
-/
namespace PluginAudit.Command
open Declaration

/-- Checks aliases in turn and claims each, given those of the declaration before them. One that the
    declaration owns itself does not collide. -/
def claimAliases (index : Nat) (command? : Option Text) (owners : Registry) (before : List Text) :
    List Text → List Problem × Registry
  | [] => ([], owners)
  | name :: rest =>
    let own :=
      (if startsWithSlash name then [] else [.aliasStart name]) ++
      (if command? = some name then [.aliasIsCommand name] else []) ++
      (if before.contains name then [.duplicateAlias name] else [])
    let taken := ((owners.owner? name).filter (· ≠ index)).toList.map (.aliasCollision name)
    let (later, owners) := claimAliases index command? (owners.claim index name) (name :: before) rest
    (own ++ taken ++ later, owners)

/-- The errors of a declaration that claims its names on the way, with the owners that it leaves. -/
def Declaration.claim (shape : Shape) (index : Nat) (owners : Registry) (d : Declaration) : List Problem × Registry :=
  let claimed := owners.claimAll index d.name?.toList
  let (aliases, claimed) := claimAliases index (value? d.command) claimed [] (Code.literalValues d.aliases)
  (d.commandProblems owners ++
    textProblems (lit "displayName") d.displayName ++
    textProblems (lit "shortDesc") d.shortDesc ++
    textProblems (lit "fullDesc") d.fullDesc ++
    d.categoryProblems shape ++
    d.permissionProblems ++
    d.flagProblems ++
    aliases ++
    d.exampleProblems, claimed)

/-- Checks calls in turn, each of which claims its names on the way. -/
def Shape.claimingVerdicts (shape : Shape) (index : Nat) (owners : Registry) : List (List Text) → List (Nat × Verdict)
  | [] => []
  | arguments :: rest =>
    match shape.declaration? arguments with
    | none =>
      (index, ⟨[(.error, .arity shape.arity arguments.length)], [], none, none⟩) ::
        shape.claimingVerdicts (index + 1) owners rest
    | some d =>
      let (errors, claimed) := d.claim shape index owners
      (index, ⟨d.escapeProblems ++ errors.map fun problem => (.error, problem), d.names, d.permission?, d.record?⟩) ::
        shape.claimingVerdicts (index + 1) claimed rest

variable {shape : Shape} {owners : Registry} {index : Nat} {d : Declaration}

theorem filter_owner?_claimAll (fresh : ∀ name, owners.owner? name ≠ some index) (claimed : List Text) (name : Text) :
    ((owners.claimAll index claimed).owner? name).filter (· ≠ index) = owners.owner? name := by
  rw [Registry.owner?_claimAll]
  cases owned : owners.owner? name with
  | none => split <;> simp
  | some first =>
    have other : first ≠ index := by
      rintro rfl
      exact fresh name owned
    split <;> simp [other]

/-- What was claimed so far has an owner, but not one that collides. -/
theorem claimAliases_eq (fresh : ∀ name, owners.owner? name ≠ some index) (command? : Option Text)
    (claimed before names : List Text) :
    claimAliases index command? (owners.claimAll index claimed) before names =
      (aliasesProblems owners command? before names, owners.claimAll index (claimed ++ names)) := by
  -- `claimed` are the names that the declaration owns so far: they grow by one with each alias
  induction names generalizing claimed before with
  | nil => rw [List.append_nil, claimAliases, aliasesProblems]
  | cons name names ih =>
    have next : (owners.claimAll index claimed).claim index name = owners.claimAll index (claimed ++ [name]) := by
      rw [Registry.claimAll, Registry.claimAll, List.foldl_concat]
    rw [claimAliases, next, ih, filter_owner?_claimAll fresh, List.append_assoc]
    rfl

theorem claim_eq (fresh : ∀ name, owners.owner? name ≠ some index) :
    d.claim shape index owners = (d.errors shape owners, owners.claimAll index d.names) := by
  rw [Declaration.claim, claimAliases_eq fresh]
  rfl

/-- Declarations that claim their names on the way get the verdicts of those that look them up beforehand. -/
theorem claimingVerdicts_eq (earlier : ∀ name first, owners.owner? name = some first → first < index)
    (lists : List (List Text)) : shape.claimingVerdicts index owners lists = shape.verdicts index owners lists := by
  induction lists generalizing index owners with
  | nil => rfl
  | cons arguments lists ih =>
    have fresh : ∀ name, owners.owner? name ≠ some index := fun name owned =>
      Nat.lt_irrefl index (earlier name index owned)
    rw [Shape.claimingVerdicts, Shape.verdicts, Shape.verdict]
    cases shape.declaration? arguments with
    | none =>
      have later : shape.claimingVerdicts (index + 1) owners lists = shape.verdicts (index + 1) owners lists :=
        ih fun name first owned => Nat.lt_succ_of_lt (earlier name first owned)
      exact congrArg _ later
    | some d =>
      have claimed : ∀ name first, (owners.claimAll index d.names).owner? name = some first → first < index + 1 := by
        intro name first owned
        rw [Registry.owner?_claimAll] at owned
        split at owned
        · obtain rfl := Option.some.inj owned
          cases before : owners.owner? name with
          | none => exact Nat.lt_succ_self index
          | some first => exact Nat.lt_succ_of_lt (earlier name first before)
        · exact Nat.lt_succ_of_lt (earlier name first owned)
      dsimp only
      rw [claim_eq fresh, ih claimed]
      rfl

theorem claimingVerdicts_empty (lists : List (List Text)) :
    shape.claimingVerdicts 1 .empty lists = shape.verdicts 1 .empty lists :=
  claimingVerdicts_eq (fun name _ owned => by cases (Registry.owner?_empty name).symm.trans owned) lists

end PluginAudit.Command
