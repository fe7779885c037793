import PluginAudit.Registry

/-!
# Names along a list

A name goes to the first of some numbered items that claims it, unless it has an owner already (`owner?_after`).
-/
namespace PluginAudit.Registry

section
variable {α : Type} (claims : α → List Text)

/-- The registry after items have claimed their names in turn, the first of all having a given number. -/
def after (owners : Registry) (index : Nat) : List α → Registry
  | [] => owners
  | item :: items => after (owners.claimAll index (claims item)) (index + 1) items

/-- The number of the first item that claims a name, the first of all having a given number. -/
def firstClaim? (name : Text) (index : Nat) : List α → Option Nat
  | [] => none
  | item :: items => if (claims item).contains name then some index else firstClaim? name (index + 1) items

end

section
variable {α : Type} {claims : α → List Text} {owners : Registry} {name : Text}

theorem firstClaim?_cons (name : Text) (index : Nat) (item : α) (items : List α) :
    firstClaim? claims name index (item :: items) =
      if name ∈ claims item then some index else firstClaim? claims name (index + 1) items := by
  simp only [firstClaim?, List.contains_iff_mem]

/-- A name keeps the owner that it has, and otherwise goes to the first item that claims it. -/
theorem owner?_after (index : Nat) (items : List α) : (after claims owners index items).owner? name =
    (owners.owner? name).or (firstClaim? claims name index items) := by
  induction items generalizing index owners with
  | nil => simp [after, firstClaim?]
  | cons item items ih =>
    rw [after, ih, owner?_claimAll, firstClaim?_cons]
    by_cases claimed : name ∈ claims item
    · rw [if_pos claimed, if_pos claimed]
      cases owners.owner? name <;> rfl
    · rw [if_neg claimed, if_neg claimed]

theorem firstClaim?_eq_some_iff {index first : Nat} {items : List α} :
    firstClaim? claims name index items = some first ↔
    ∃ k item, first = index + k ∧ items[k]? = some item ∧ name ∈ claims item ∧
      ∀ i < k, ∀ earlier, items[i]? = some earlier → name ∉ claims earlier := by
  induction items generalizing index with
  | nil => simp [firstClaim?]
  | cons head items ih =>
    rw [firstClaim?_cons]
    by_cases claimed : name ∈ claims head
    · rw [if_pos claimed]
      constructor
      · rintro ⟨⟩
        exact ⟨0, head, rfl, rfl, claimed, by simp⟩
      · rintro ⟨k, item, rfl, -, -, none⟩
        cases k with
        | zero => rfl
        | succ k => exact absurd claimed (none 0 (by omega) head rfl)
    · rw [if_neg claimed, ih]
      constructor
      · rintro ⟨k, item, rfl, found, mem, none⟩
        refine ⟨k + 1, item, by omega, by simpa using found, mem, fun i bound earlier at? => ?_⟩
        cases i with
        | zero =>
          obtain rfl : head = earlier := by simpa using at?
          exact claimed
        | succ i => exact none i (by omega) earlier (by simpa using at?)
      · rintro ⟨k, item, rfl, found, mem, none⟩
        cases k with
        | zero =>
          obtain rfl : head = item := by simpa using found
          exact absurd mem claimed
        | succ k =>
          refine ⟨k, item, by omega, by simpa using found, mem, fun i bound earlier at? => ?_⟩
          exact none (i + 1) (by omega) earlier (by simpa using at?)

end
end PluginAudit.Registry
