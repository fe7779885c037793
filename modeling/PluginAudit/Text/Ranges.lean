/-!
# Ranges of code points

A class of characters that a standard gives as data is an ascending list of closed intervals of code
points, so a search may stop early.
-/
namespace PluginAudit.Text

/-- Whether intervals are not empty, ascend, and leave a gap between neighbours, from `least` on. -/
def ascend : Nat → List (Nat × Nat) → Bool
  | _, [] => true
  | least, (first, last) :: later => least ≤ first && first ≤ last && ascend (last + 2) later

/-- Closed intervals of code points, in ascending order. -/
structure Ranges where
  intervals : List (Nat × Nat)
  ascending : ascend 0 intervals := by decide +kernel

namespace Ranges

/-- Whether a code point lies in one of some intervals. The search ends at the first interval
    that begins after it. -/
def search : List (Nat × Nat) → Nat → Bool
  | [], _ => false
  | (first, last) :: later, n => if n < first then false else n ≤ last || search later n

def holds (ranges : Ranges) (n : Nat) : Bool := search ranges.intervals n

theorem le_of_ascend {least : Nat} {intervals : List (Nat × Nat)} (order : ascend least intervals) :
    ∀ r ∈ intervals, least ≤ r.1 := by
  induction intervals generalizing least with
  | nil => simp
  | cons range later ih =>
    obtain ⟨first, last⟩ := range
    simp only [ascend, Bool.and_eq_true, decide_eq_true_eq] at order
    intro r mem
    rcases List.mem_cons.mp mem with rfl | mem
    · exact order.1.1
    · have := ih order.2 r mem
      omega

theorem search_iff {least n : Nat} {intervals : List (Nat × Nat)} (order : ascend least intervals) :
    search intervals n ↔ ∃ r ∈ intervals, r.1 ≤ n ∧ n ≤ r.2 := by
  induction intervals generalizing least with
  | nil => simp [search]
  | cons range later ih =>
    obtain ⟨first, last⟩ := range
    simp only [ascend, Bool.and_eq_true, decide_eq_true_eq] at order
    simp only [search, List.mem_cons, exists_eq_or_imp]
    split
    next before =>
      have beyond := le_of_ascend order.2
      simp only [Bool.false_eq_true, false_iff, not_or, not_exists, not_and]
      exact ⟨by omega, fun r mem low => by have := beyond r mem; omega⟩
    next from_first =>
      simp only [Bool.or_eq_true, decide_eq_true_eq, ih order.2]
      have within : first ≤ n := by omega
      simp [within]

theorem holds_iff {ranges : Ranges} {n : Nat} : ranges.holds n ↔ ∃ r ∈ ranges.intervals, r.1 ≤ n ∧ n ≤ r.2 :=
  search_iff ranges.ascending

end Ranges
end PluginAudit.Text
