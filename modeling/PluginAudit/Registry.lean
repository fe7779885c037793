import PluginAudit.Text.Basic

namespace PluginAudit

/-- The names claimed so far, each with the number of the record that claimed it first. -/
structure Registry where
  claims : List (Text × Nat)
deriving DecidableEq

namespace Registry

def empty : Registry := ⟨[]⟩

def owner? (r : Registry) (name : Text) : Option Nat := r.claims.lookup name

def claim (r : Registry) (index : Nat) (name : Text) : Registry :=
  match r.owner? name with
  | some _ => r
  | none => ⟨(name, index) :: r.claims⟩

def claimAll (r : Registry) (index : Nat) (names : List Text) : Registry := names.foldl (·.claim index) r

@[simp] theorem owner?_empty (name : Text) : empty.owner? name = none := rfl

/-- A claim gives the name to the record unless it has an owner, and no other name changes hands. -/
theorem owner?_claim (r : Registry) (index : Nat) (name other : Text) :
    (r.claim index name).owner? other =
      if other = name then some ((r.owner? name).getD index) else r.owner? other := by
  unfold claim
  split
  next first owned => split <;> simp_all
  next free =>
    by_cases same : other = name
    · subst same
      rw [if_pos rfl, free]
      simp [owner?]
    · have : (other == name) = false := by simpa using same
      simp [owner?, List.lookup_cons, this, same]

/-- Claims in turn give a record the names that have no owner, and no other name changes hands. -/
theorem owner?_claimAll (r : Registry) (index : Nat) (names : List Text) (other : Text) :
    (r.claimAll index names).owner? other =
      if other ∈ names then some ((r.owner? other).getD index) else r.owner? other := by
  induction names generalizing r with
  | nil => simp [claimAll]
  | cons name names ih =>
    have step : r.claimAll index (name :: names) = (r.claim index name).claimAll index names := rfl
    rw [step, ih, owner?_claim]
    by_cases same : other = name
    · subst same
      simp
    · simp [same]

end Registry
end PluginAudit
