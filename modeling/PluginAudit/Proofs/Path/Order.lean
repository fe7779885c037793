import PluginAudit.NameSet
import PluginAudit.Path
import Mathlib.Data.List.Sort

/-!
# The order of paths

Paths are in a linear order of their components, so there is one way to sort paths with different components
(`mergeSort_eq_of_perm`).
-/
namespace PluginAudit.Path

theorem Component.before_iff {a b : Component} :
    a.before b ↔ a.rank < b.rank ∨ ∃ s t, a = name s ∧ b = name t ∧ s < t := by
  cases a <;> cases b <;> simp [Component.before, Component.rank]

theorem Component.not_before_self (a : Component) : a.before a = false := by
  cases a with
  | name t => exact decide_eq_false (List.lt_irrefl t)
  | root | here | parent => rfl

theorem Component.before_trans {a b c : Component} (ab : a.before b) (bc : b.before c) : a.before c := by
  rw [before_iff] at ab bc ⊢
  rcases ab with ab | ⟨s, t, rfl, rfl, st⟩
  · rcases bc with bc | ⟨t, u, rfl, rfl, -⟩
    · exact .inl (ab.trans bc)
    · exact .inl ab
  · rcases bc with bc | ⟨t, u, eq, rfl, tu⟩
    · exact .inl bc
    · cases eq
      exact .inr ⟨s, u, rfl, rfl, List.lt_trans st tu⟩

theorem Component.before_or_before {a b : Component} (different : a ≠ b) : a.before b ∨ b.before a := by
  rcases Nat.lt_trichotomy a.rank b.rank with less | same | greater
  · exact .inl (before_iff.mpr (.inl less))
  · cases a with
    | name s =>
      cases b with
      | name t =>
        by_cases less : s < t
        · exact .inl (decide_eq_true less)
        · exact .inr (decide_eq_true (NameSet.lt_of_not_lt_of_ne less fun eq => different (congrArg _ eq)))
      | root | here | parent => cases same
    | root | here | parent => cases b <;> first | exact absurd rfl different | cases same
  · exact .inr (before_iff.mpr (.inl greater))

theorem componentsBefore_cons {a b : Component} {as bs : List Component} :
    componentsBefore (a :: as) (b :: bs) ↔ a.before b ∨ a = b ∧ componentsBefore as bs := by
  rw [componentsBefore, Bool.or_eq_true, Bool.and_eq_true, beq_iff_eq]

theorem not_componentsBefore_self (as : List Component) : ¬ componentsBefore as as := by
  induction as with
  | nil => exact Bool.false_ne_true
  | cons a as ih => simp [componentsBefore_cons, a.not_before_self, ih]

theorem componentsBefore_trans {as bs cs : List Component} (ab : componentsBefore as bs)
    (bc : componentsBefore bs cs) : componentsBefore as cs := by
  induction as generalizing bs cs with
  | nil =>
    cases cs with
    | nil => cases bs <;> cases bc
    | cons c cs => rfl
  | cons a as ih =>
    cases bs with
    | nil => cases ab
    | cons b bs =>
      cases cs with
      | nil => cases bc
      | cons c cs =>
        rw [componentsBefore_cons] at ab bc ⊢
        rcases ab with ab | ⟨rfl, ab⟩
        · rcases bc with bc | ⟨rfl, -⟩
          · exact .inl (Component.before_trans ab bc)
          · exact .inl ab
        · rcases bc with bc | ⟨rfl, bc⟩
          · exact .inl bc
          · exact .inr ⟨rfl, ih ab bc⟩

theorem componentsBefore_or_componentsBefore {as bs : List Component} (different : as ≠ bs) :
    componentsBefore as bs ∨ componentsBefore bs as := by
  induction as generalizing bs with
  | nil =>
    cases bs with
    | nil => exact absurd rfl different
    | cons b bs => exact .inl rfl
  | cons a as ih =>
    cases bs with
    | nil => exact .inr rfl
    | cons b bs =>
      rw [componentsBefore_cons, componentsBefore_cons]
      by_cases same : a = b
      · subst same
        rcases ih (fun eq => different (congrArg _ eq)) with less | less
        · exact .inl (.inr ⟨rfl, less⟩)
        · exact .inr (.inr ⟨rfl, less⟩)
      · exact (Component.before_or_before same).imp .inl .inl

theorem componentsBefore_iff_lex {as bs : List Component} :
    componentsBefore as bs ↔ List.Lex (fun a b => a.before b) as bs := by
  induction as generalizing bs with
  | nil => cases bs <;> simp [componentsBefore]
  | cons a as ih =>
    cases bs with
    | nil => simp [componentsBefore]
    | cons b bs => rw [componentsBefore_cons, ih, List.cons_lex_cons_iff]

variable {p q r : Path}

theorem same_iff : p.same q ↔ p.components = q.components := beq_iff_eq

theorem comesBefore_trans (pq : p.comesBefore q) (qr : q.comesBefore r) : p.comesBefore r :=
  componentsBefore_trans pq qr

theorem not_comesBefore_self (p : Path) : ¬ p.comesBefore p := not_componentsBefore_self _

theorem ne_of_comesBefore (pq : p.comesBefore q) : p.components ≠ q.components := by
  intro same
  rw [comesBefore, same] at pq
  exact not_componentsBefore_self _ pq

theorem comesBefore_or_same (qp : ¬ q.comesBefore p) : p.comesBefore q ∨ p.components = q.components := by
  by_cases same : p.components = q.components
  · exact .inr same
  · exact .inl ((componentsBefore_or_componentsBefore same).resolve_right qp)

/-- Sorting paths of which no two have the same components gives the only list of them that is in order. -/
theorem mergeSort_eq_of_perm {ps qs : List Path} (ordered : qs.Pairwise fun p q => p.comesBefore q)
    (perm : ps.Perm qs) : ps.mergeSort (fun p q => !q.comesBefore p) = qs := by
  have sorted : (ps.mergeSort fun p q => !q.comesBefore p).Pairwise fun p q => (!q.comesBefore p) = true := by
    refine List.pairwise_mergeSort (fun p q r pq qr => ?_) (fun p q => ?_) ps
    · simp only [Bool.not_eq_true', ← Bool.not_eq_true] at pq qr ⊢
      intro rp
      rcases comesBefore_or_same pq with less | same
      · exact qr (comesBefore_trans rp less)
      · exact qr (by rwa [comesBefore, ← same])
    · simp only [Bool.or_eq_true, Bool.not_eq_true', ← Bool.not_eq_true]
      by_contra both
      rw [not_or, not_not, not_not] at both
      exact not_comesBefore_self p (comesBefore_trans both.2 both.1)
  -- Other spellings of a path are neither before nor after it, but the list has no two of them.
  have antisymm : ∀ p ∈ qs, ∀ q ∈ qs, ¬ q.comesBefore p → ¬ p.comesBefore q → p = q :=
    List.Pairwise.forall_of_forall_of_flip (fun _ _ _ _ => rfl)
      (ordered.imp fun pq _ not => absurd pq not) (ordered.imp fun pq not _ => absurd pq not)
  have same : (ps.mergeSort fun p q => !q.comesBefore p).Perm qs := (List.mergeSort_perm ps _).trans perm
  refine List.Perm.eq_of_pairwise (fun p q hp hq pq qp => ?_) sorted (ordered.imp fun {p q} pq => ?_) same
  · simp only [Bool.not_eq_true', ← Bool.not_eq_true] at pq qp
    exact antisymm p (same.mem_iff.mp hp) q hq pq qp
  · simp only [Bool.not_eq_true', ← Bool.not_eq_true]
    exact fun qp => not_comesBefore_self p (comesBefore_trans pq qp)

end PluginAudit.Path
