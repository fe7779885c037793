import PluginAudit.Proofs.Path.Written
import Mathlib.Logic.Relation

/-!
# What does not count in the spelling of a path

A slash after a slash, a slash at the end and a point between slashes or at the end can be left out (`Respelled`),
and that is all that does not count (`components_eq_iff`): every path is brought into the one spelling that its
components are written in (`eqvGen_written`).
-/
namespace PluginAudit

namespace Path

/-- One spelling is another with a slash or a point more that does not count. -/
inductive Respelled : Path → Path → Prop
  | slashes (s t : Text) : Respelled ⟨s ++ '/' :: '/' :: t⟩ ⟨s ++ '/' :: t⟩
  | between (s t : Text) : Respelled ⟨s ++ '/' :: '.' :: '/' :: t⟩ ⟨s ++ '/' :: t⟩
  | point (s : Text) : Respelled ⟨s ++ ['/', '.']⟩ ⟨s ++ ['/']⟩
  | slash {s : Text} (nonempty : s ≠ []) : Respelled ⟨s ++ ['/']⟩ ⟨s⟩

/-- The components that a text spells after a slash. -/
def inner (t : Text) : List Component := (Text.splitOn '/' t).filterMap component?

theorem inner_append_slash (s t : Text) : inner (s ++ '/' :: t) = inner s ++ inner t := by
  rw [inner, Text.splitOn_append_mark, List.filterMap_append]
  rfl

theorem components_slash (t : Text) : components ⟨'/' :: t⟩ = .root :: inner t := by
  simp [components, isRooted, Text.splitOn, inner, component?]

theorem components_append_slash {s : Text} (nonempty : s ≠ []) (t : Text) :
    components ⟨s ++ '/' :: t⟩ = components ⟨s⟩ ++ inner t := by
  have rooted : isRooted ⟨s ++ '/' :: t⟩ = isRooted ⟨s⟩ := by
    rw [isRooted, isRooted, List.head?_append_of_ne_nil _ nonempty]
  have head : (Text.splitOn '/' s ++ Text.splitOn '/' t).head? = (Text.splitOn '/' s).head? :=
    List.head?_append_of_ne_nil _ (Text.splitOn_ne_nil '/' s)
  simp only [components, rooted, Text.splitOn_append_mark, head, List.filterMap_append, List.append_assoc, inner]

theorem components_congr (s : Text) {t t' : Text} (same : inner t = inner t') :
    components ⟨s ++ '/' :: t⟩ = components ⟨s ++ '/' :: t'⟩ := by
  by_cases empty : s = []
  · rw [empty, List.nil_append, List.nil_append, components_slash, components_slash, same]
  · rw [components_append_slash empty, components_append_slash empty, same]

theorem Respelled.components_eq {p q : Path} (respelled : Respelled p q) : p.components = q.components := by
  cases respelled with
  | slashes s t => exact components_congr s (inner_append_slash [] t)
  | between s t => exact components_congr s (inner_append_slash ['.'] t)
  | point s => exact components_congr s rfl
  | slash nonempty => rw [components_append_slash nonempty]; exact List.append_nil _

/-- The part between slashes that a component is written as. -/
def Component.part : Component → Text
  | root => []
  | here => ['.']
  | parent => ['.', '.']
  | name t => t

def plain (cs : List Component) : Text := ['/'].intercalate (cs.map Component.part)

/-- The spelling that components are written in. -/
def written : List Component → Path
  | .root :: cs => ⟨'/' :: plain cs⟩
  | cs => ⟨plain cs⟩

theorem plain_cons (c : Component) {cs : List Component} (nonempty : cs ≠ []) :
    plain (c :: cs) = c.part ++ '/' :: plain cs := by
  cases cs with
  | nil => exact absurd rfl nonempty
  | cons next cs =>
    rw [plain, List.map_cons, List.map_cons, List.intercalate_cons_cons, ← List.map_cons]
    simp [plain]

theorem written_cons {c : Component} (notRoot : c ≠ .root) (cs : List Component) :
    written (c :: cs) = ⟨plain (c :: cs)⟩ := by
  cases c with
  | root => exact absurd rfl notRoot
  | here | parent | name _ => rfl

theorem plain_singleton (c : Component) : plain [c] = c.part := List.intercalate_singleton ..

theorem exists_component {part : Text} (nonempty : part ≠ []) (solid : part ≠ ['.']) :
    ∃ c, c ≠ .root ∧ component? part = some c ∧ c.part = part := by
  rw [component?, if_neg (not_or.mpr ⟨nonempty, solid⟩)]
  by_cases parent : part = ['.', '.']
  · exact ⟨.parent, by simp, if_pos parent, parent.symm⟩
  · exact ⟨.name part, by simp, if_neg parent, rfl⟩

theorem exists_components {part : Text} (free : '/' ∉ part) (nonempty : part ≠ []) :
    ∃ c, c ≠ .root ∧ components ⟨part⟩ = [c] ∧ c.part = part := by
  by_cases point : part = ['.']
  · subst point
    exact ⟨.here, by decide, by decide, rfl⟩
  · obtain ⟨c, notRoot, counts, spelled⟩ := exists_component nonempty point
    have unrooted : isRooted ⟨part⟩ = false := by
      rw [isRooted, beq_eq_false_iff_ne]
      exact fun slash => free (List.mem_of_head? slash)
    refine ⟨c, notRoot, ?_, spelled⟩
    simp [components, unrooted, Text.splitOn_of_not_mem free, point, counts]

theorem exists_part (t : Text) : '/' ∉ t ∨ ∃ part rest, '/' ∉ part ∧ t = part ++ '/' :: rest := by
  by_cases mem : '/' ∈ t
  · obtain ⟨part, rest, spelled, free⟩ := List.eq_append_cons_of_mem mem
    exact .inr ⟨part, rest, free, spelled⟩
  · exact .inl mem

open Relation (EqvGen)

theorem inner_of_part {part : Text} (free : '/' ∉ part) : inner part = (component? part).toList := by
  rw [inner, Text.splitOn_of_not_mem free, List.filterMap_cons, List.filterMap_nil]
  cases component? part <;> rfl

theorem eqvGen_plain_cons {s : Text} (c : Component) (nonempty : s ++ c.part ≠ []) (cs : List Component) :
    EqvGen Respelled ⟨s ++ c.part ++ '/' :: plain cs⟩ ⟨s ++ plain (c :: cs)⟩ := by
  by_cases empty : cs = []
  · subst empty
    rw [plain_singleton]
    exact .rel _ _ (.slash nonempty)
  · rw [plain_cons c empty, List.append_assoc]
    exact .refl _

theorem eqvGen_inner (s t : Text) : EqvGen Respelled ⟨s ++ '/' :: t⟩ ⟨s ++ '/' :: plain (inner t)⟩ := by
  rcases exists_part t with free | ⟨part, rest, free, spelled⟩
  · by_cases empty : t = []
    · subst empty
      exact .refl _
    by_cases point : t = ['.']
    · subst point
      exact .rel _ _ (.point s)
    obtain ⟨c, -, counts, part⟩ := exists_component empty point
    rw [inner_of_part free, counts, Option.toList_some, plain_singleton, part]
    exact .refl _
  · have shorter : rest.length < t.length := by
      rw [spelled, List.length_append, List.length_cons]
      omega
    subst spelled
    rw [inner_append_slash, inner_of_part free]
    by_cases empty : part = []
    · subst empty
      exact .trans _ _ _ (.rel _ _ (.slashes s rest)) (eqvGen_inner s rest)
    by_cases point : part = ['.']
    · subst point
      exact .trans _ _ _ (.rel _ _ (.between s rest)) (eqvGen_inner s rest)
    obtain ⟨c, -, counts, partEq⟩ := exists_component empty point
    have later := eqvGen_inner (s ++ '/' :: part) rest
    have leave := eqvGen_plain_cons (s := s ++ ['/']) c (by simp) (inner rest)
    rw [counts]
    simp only [List.append_assoc, List.cons_append, List.nil_append, partEq] at later leave
    exact .trans _ _ _ later leave
termination_by t.length

/-- Every path is brought into the spelling of its components. -/
theorem eqvGen_written (p : Path) : EqvGen Respelled p (written p.components) := by
  obtain ⟨t⟩ := p
  rcases exists_part t with free | ⟨part, rest, free, rfl⟩
  · by_cases empty : t = []
    · subst empty
      exact .refl _
    · obtain ⟨c, notRoot, alone, spelled⟩ := exists_components free empty
      rw [alone, written_cons notRoot, plain_singleton, spelled]
      exact .refl _
  · have later := eqvGen_inner part rest
    by_cases empty : part = []
    · subst empty
      rw [List.nil_append, components_slash]
      exact later
    · obtain ⟨c, notRoot, first, spelled⟩ := exists_components free empty
      have leave := eqvGen_plain_cons (s := []) c (by simpa [spelled] using empty) (inner rest)
      rw [components_append_slash empty, first, List.singleton_append, written_cons notRoot]
      simp only [List.nil_append, spelled] at leave
      exact .trans _ _ _ later leave

/-- Paths have the same components exactly if they are the same up to what does not count. -/
theorem components_eq_iff {p q : Path} : p.components = q.components ↔ EqvGen Respelled p q := by
  constructor
  · intro same
    have right := eqvGen_written q
    rw [← same] at right
    exact .trans _ _ _ (eqvGen_written p) (.symm _ _ right)
  · intro joined
    induction joined with
    | rel _ _ respelled => exact respelled.components_eq
    | refl _ => rfl
    | symm _ _ _ ih => exact ih.symm
    | trans _ _ _ _ _ first second => exact first.trans second

end Path
end PluginAudit
