import PluginAudit.Path
import Mathlib.Data.List.Infix

/-!
# Paths written as names

A path that is written as names with single slashes between them has these names as its components
(`components_ofNames`), so such paths are compared as their lists of names are.
-/
namespace PluginAudit

namespace Text

theorem splitOn_ne_nil (mark : Char) (t : Text) : splitOn mark t ≠ [] := by
  cases t with
  | nil => exact List.cons_ne_nil _ _
  | cons c t =>
    rw [splitOn]
    split
    · exact List.cons_ne_nil _ _
    · split <;> exact List.cons_ne_nil _ _

theorem splitOn_append_mark (mark : Char) (s t : Text) :
    splitOn mark (s ++ mark :: t) = splitOn mark s ++ splitOn mark t := by
  induction s with
  | nil => simp [splitOn]
  | cons c s ih =>
    rw [List.cons_append, splitOn, splitOn, ih]
    split
    · rfl
    · cases parts : splitOn mark s with
      | nil => exact absurd parts (splitOn_ne_nil mark s)
      | cons part parts => rfl

theorem splitOn_of_not_mem {mark : Char} {t : Text} (free : mark ∉ t) : splitOn mark t = [t] := by
  induction t with
  | nil => rfl
  | cons c t ih =>
    obtain ⟨other, free⟩ := not_or.mp (List.mem_cons.not.mp free)
    simp [splitOn, Ne.symm other, ih free]

theorem splitOn_append {mark : Char} {t rest : Text} (free : mark ∉ t) :
    splitOn mark (t ++ mark :: rest) = t :: splitOn mark rest := by
  rw [splitOn_append_mark, splitOn_of_not_mem free, List.singleton_append]

theorem flatten_splitOn (mark : Char) (t : Text) : (splitOn mark t).flatten = t.filter (· ≠ mark) := by
  induction t with
  | nil => rfl
  | cons c t ih =>
    rw [splitOn]
    by_cases here : c = mark
    · simpa [here] using ih
    · cases parts : splitOn mark t with
      | nil => exact absurd parts (splitOn_ne_nil mark t)
      | cons part parts =>
        rw [parts] at ih
        simpa [here] using ih

theorem mem_of_mem_splitOn {mark c : Char} {t part : Text} (listed : part ∈ splitOn mark t) (mem : c ∈ part) : c ∈ t := by
  have whole : c ∈ (splitOn mark t).flatten := List.mem_flatten_of_mem listed mem
  rw [flatten_splitOn] at whole
  exact List.mem_of_mem_filter whole

theorem splitOn_intercalate {mark : Char} {parts : List Text} (nonempty : parts ≠ [])
    (free : ∀ part ∈ parts, mark ∉ part) : splitOn mark ([mark].intercalate parts) = parts := by
  induction parts with
  | nil => exact absurd rfl nonempty
  | cons part parts ih =>
    obtain ⟨first, rest⟩ := List.forall_mem_cons.mp free
    cases parts with
    | nil => rw [List.intercalate_singleton, splitOn_of_not_mem first]
    | cons next parts =>
      rw [List.intercalate_cons_cons, List.append_assoc, List.singleton_append, splitOn_append first,
        ih (List.cons_ne_nil _ _) rest]

end Text

namespace Path

/-- A text that names a file in a directory. -/
structure IsName (t : Text) : Prop where
  nonempty : t ≠ []
  whole : '/' ∉ t
  ne_here : t ≠ ['.']
  ne_parent : t ≠ ['.', '.']

/-- Names that make up a path. -/
structure AreNames (names : List Text) : Prop where
  nonempty : names ≠ []
  each : ∀ name ∈ names, IsName name

instance (t : Text) : Decidable (IsName t) :=
  decidable_of_iff (t ≠ [] ∧ '/' ∉ t ∧ t ≠ ['.'] ∧ t ≠ ['.', '.'])
    ⟨fun ⟨a, b, c, d⟩ => ⟨a, b, c, d⟩, fun ⟨a, b, c, d⟩ => ⟨a, b, c, d⟩⟩

instance (names : List Text) : Decidable (AreNames names) :=
  decidable_of_iff (names ≠ [] ∧ ∀ name ∈ names, IsName name) ⟨fun ⟨a, b⟩ => ⟨a, b⟩, fun ⟨a, b⟩ => ⟨a, b⟩⟩

/-- The path that is written as names with slashes between them. -/
def ofNames (names : List Text) : Path := ⟨['/'].intercalate names⟩

theorem mem_spelling_ofNames {c : Char} (other : c ≠ '/') {names : List Text} :
    c ∈ (ofNames names).spelling ↔ ∃ name ∈ names, c ∈ name := by
  rw [ofNames]
  induction names with
  | nil => simp
  | cons first names ih =>
    cases names with
    | nil => simp
    | cons next names =>
      rw [List.intercalate_cons_cons, List.mem_append, List.mem_append, ih, List.mem_singleton]
      simp [other]

theorem IsName.component?_eq {t : Text} (h : IsName t) : component? t = some (.name t) := by
  simp [component?, h.nonempty, h.ne_here, h.ne_parent]

section
variable {names : List Text} (h : AreNames names)
include h

theorem AreNames.splitOn_spelling : Text.splitOn '/' (ofNames names).spelling = names :=
  Text.splitOn_intercalate h.nonempty fun name mem => (h.each name mem).whole

theorem AreNames.spelling_ne_nil : (ofNames names).spelling ≠ [] := by
  have split := h.splitOn_spelling
  intro empty
  rw [empty, Text.splitOn] at split
  exact (h.each [] (split ▸ List.mem_cons_self)).nonempty rfl

theorem AreNames.not_isRooted : (ofNames names).isRooted = false := by
  have split := h.splitOn_spelling
  rw [isRooted, beq_eq_false_iff_ne]
  intro slash
  obtain ⟨rest, spelled⟩ := List.head?_eq_some_iff.mp slash
  rw [spelled, Text.splitOn, if_pos rfl] at split
  exact (h.each [] (split ▸ List.mem_cons_self)).nonempty rfl

theorem AreNames.components_ofNames : (ofNames names).components = names.map .name := by
  have start : names.head? ≠ some ['.'] := fun here => (h.each _ (List.mem_of_head? here)).ne_here rfl
  have parts : names.filterMap component? = names.map .name := by
    rw [← List.filterMap_eq_map]
    exact List.filterMap_congr fun name mem => (h.each name mem).component?_eq
  simp [components, h.not_isRooted, h.splitOn_spelling, start, parts]

end

section
variable {names others : List Text} (h : AreNames names) (h' : AreNames others)
include h h'

theorem AreNames.same_iff : (ofNames names).same (ofNames others) ↔ names = others := by
  rw [same, beq_iff_eq, h.components_ofNames, h'.components_ofNames]
  exact List.map_inj_right fun _ _ => Component.name.inj

theorem AreNames.ofNames_inj (eq : ofNames names = ofNames others) : names = others := by
  rw [← h.splitOn_spelling, eq, h'.splitOn_spelling]

theorem AreNames.startsWith_iff : (ofNames names).startsWith (ofNames others) ↔ others <+: names := by
  rw [startsWith, List.isPrefixOf_iff_prefix, h.components_ofNames, h'.components_ofNames]
  exact List.prefix_map_iff_of_injective fun _ _ => Component.name.inj

theorem AreNames.below_iff : (ofNames names).below (ofNames others) ↔ others <+: names ∧ others ≠ names := by
  rw [below, Bool.and_eq_true, Bool.not_eq_true', ← Bool.not_eq_true, h.startsWith_iff h', h.same_iff h', ne_comm]

end

theorem spelling_ofNames_concat {names : List Text} (nonempty : names ≠ []) (name : Text) :
    (ofNames (names ++ [name])).spelling = (ofNames names).spelling ++ '/' :: name := by
  induction names with
  | nil => exact absurd rfl nonempty
  | cons first names ih =>
    cases names with
    | nil => simp [ofNames, List.intercalate_cons_cons]
    | cons next names =>
      have rest := ih (List.cons_ne_nil _ _)
      simp only [ofNames, List.cons_append] at rest ⊢
      rw [List.intercalate_cons_cons, rest, List.intercalate_cons_cons, List.append_assoc _ _ ('/' :: name)]

theorem AreNames.getLast?_spelling {names : List Text} (h : AreNames names) :
    (ofNames names).spelling.getLast? ≠ some '/' := by
  obtain ⟨before, last, rfl⟩ := (List.eq_nil_or_concat' names).resolve_left h.nonempty
  have isName := h.each last (by simp)
  have ends : last <:+ (ofNames (before ++ [last])).spelling := by
    by_cases alone : before = []
    · rw [alone, List.nil_append, ofNames, List.intercalate_singleton]
    · rw [spelling_ofNames_concat alone]
      exact (List.suffix_cons _ _).trans (List.suffix_append _ _)
  obtain ⟨start, spelled⟩ := ends
  rw [← spelled, List.getLast?_append_of_ne_nil _ isName.nonempty]
  exact fun slash => isName.whole (List.mem_of_getLast? slash)

theorem AreNames.join_ofNames {names : List Text} (h : AreNames names) (name : Text) :
    (ofNames names).join name = ofNames (names ++ [name]) := by
  rw [join, if_neg h.getLast?_spelling, ← spelling_ofNames_concat h.nonempty]

/-- A path with names below it is written as its names and these. -/
theorem AreNames.foldl_join_ofNames {names : List Text} (h : AreNames names) {more : List Text}
    (each : ∀ name ∈ more, IsName name) : more.foldl join (ofNames names) = ofNames (names ++ more) := by
  induction more generalizing names with
  | nil => rw [List.foldl_nil, List.append_nil]
  | cons name more ih =>
    obtain ⟨first, rest⟩ := List.forall_mem_cons.mp each
    have longer : AreNames (names ++ [name]) :=
      ⟨List.append_ne_nil_of_left_ne_nil h.nonempty _, List.forall_mem_append.mpr ⟨h.each, by simpa using first⟩⟩
    rw [List.foldl_cons, h.join_ofNames, ih longer rest, List.append_assoc, List.singleton_append]

end Path
end PluginAudit
