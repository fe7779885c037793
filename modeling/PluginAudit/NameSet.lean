import PluginAudit.Text.Basic

/-!
# Sets of names

A set of names is the strictly ascending list of its elements, as a report prints it. Names are
ordered by code points, which is also the order of their UTF-8 bytes.
-/
namespace PluginAudit

/-- A finite set of names, kept in strictly ascending order. -/
structure NameSet where
  toList : List Text
  ascending : toList.Pairwise (· < ·)
deriving DecidableEq

namespace NameSet

instance : Membership Text NameSet := ⟨fun s name => name ∈ s.toList⟩

theorem mem_def {name : Text} {s : NameSet} : name ∈ s ↔ name ∈ s.toList := Iff.rfl

instance (name : Text) (s : NameSet) : Decidable (name ∈ s) :=
  inferInstanceAs (Decidable (name ∈ s.toList))

def empty : NameSet := ⟨[], .nil⟩

instance : EmptyCollection NameSet := ⟨empty⟩

instance : Inhabited NameSet := ⟨empty⟩

@[simp] theorem not_mem_empty (name : Text) : name ∉ (∅ : NameSet) := List.not_mem_nil

/-- Adds a name to an ascending list at its place, unless it is there. -/
def insertInto (name : Text) : List Text → List Text
  | [] => [name]
  | first :: rest =>
    if name < first then name :: first :: rest
    else if name = first then first :: rest
    else first :: insertInto name rest

theorem mem_insertInto {name other : Text} {names : List Text} :
    other ∈ insertInto name names ↔ other = name ∨ other ∈ names := by
  fun_induction insertInto name names with
  | case1 => simp
  | case2 => simp
  | case3 => simp
  | case4 first rest _ _ ih => simp [ih]; exact or_left_comm

theorem lt_of_not_lt_of_ne {a b : Text} (notLess : ¬ a < b) (ne : a ≠ b) : b < a := by
  rcases Decidable.em (b < a) with less | notGreater
  · exact less
  · exact absurd (List.le_antisymm (List.not_lt.mp notGreater) (List.not_lt.mp notLess)) ne

theorem ascending_insertInto {name : Text} {names : List Text} (ascending : names.Pairwise (· < ·)) :
    (insertInto name names).Pairwise (· < ·) := by
  fun_induction insertInto name names with
  | case1 => simp
  | case2 first rest less =>
    refine List.pairwise_cons.mpr ⟨fun other mem => ?_, ascending⟩
    rcases List.mem_cons.mp mem with rfl | mem
    · exact less
    · exact List.lt_trans less (List.rel_of_pairwise_cons ascending mem)
  | case3 => exact ascending
  | case4 first rest notLess ne ih =>
    refine List.pairwise_cons.mpr ⟨fun other mem => ?_, ih (List.Pairwise.of_cons ascending)⟩
    rcases mem_insertInto.mp mem with rfl | mem
    · exact lt_of_not_lt_of_ne notLess ne
    · exact List.rel_of_pairwise_cons ascending mem

def insert (name : Text) (s : NameSet) : NameSet :=
  ⟨insertInto name s.toList, ascending_insertInto s.ascending⟩

@[simp] theorem mem_insert {name other : Text} {s : NameSet} :
    other ∈ s.insert name ↔ other = name ∨ other ∈ s := mem_insertInto

def ofList (names : List Text) : NameSet := names.foldr insert ∅

@[simp] theorem mem_ofList {name : Text} {names : List Text} : name ∈ ofList names ↔ name ∈ names := by
  induction names with
  | nil => simp [ofList]
  | cons first rest ih => rw [ofList, List.foldr_cons, mem_insert, List.mem_cons, ← ih, ofList]

def union (s t : NameSet) : NameSet := s.toList.foldr insert t

instance : Union NameSet := ⟨union⟩

@[simp] theorem mem_union {name : Text} {s t : NameSet} : name ∈ s ∪ t ↔ name ∈ s ∨ name ∈ t := by
  have key : ∀ names : List Text, name ∈ names.foldr insert t ↔ name ∈ names ∨ name ∈ t := by
    intro names
    induction names with
    | nil => simp
    | cons first rest ih => simp [ih, or_assoc]
  exact key s.toList

def diff (s t : NameSet) : NameSet := ⟨s.toList.filter (· ∉ t), s.ascending.filter _⟩

instance : SDiff NameSet := ⟨diff⟩

@[simp] theorem mem_diff {name : Text} {s t : NameSet} : name ∈ s \ t ↔ name ∈ s ∧ name ∉ t := by
  simp [SDiff.sdiff, diff, mem_def]

def isEmpty (s : NameSet) : Bool := s.toList.isEmpty

theorem isEmpty_iff {s : NameSet} : s.isEmpty ↔ ∀ name, name ∉ s := by
  simp [isEmpty, mem_def, List.eq_nil_iff_forall_not_mem]

theorem toList_ext {a b : List Text} (ha : a.Pairwise (· < ·)) (hb : b.Pairwise (· < ·))
    (same : ∀ name, name ∈ a ↔ name ∈ b) : a = b := by
  induction a generalizing b with
  | nil => exact (List.eq_nil_iff_forall_not_mem.mpr fun name mem => by simpa using (same name).mpr mem).symm
  | cons x xs ih =>
    cases b with
    | nil => simpa using same x
    | cons y ys =>
      have head : x = y := by
        rcases List.mem_cons.mp ((same x).mp (by simp)) with eq | xIn
        · exact eq
        rcases List.mem_cons.mp ((same y).mpr (by simp)) with eq | yIn
        · exact eq.symm
        · exact absurd (List.lt_trans (List.rel_of_pairwise_cons ha yIn) (List.rel_of_pairwise_cons hb xIn))
            (List.lt_irrefl x)
      subst head
      refine congrArg _ (ih ha.of_cons hb.of_cons fun name => ?_)
      have irrefl : ∀ {l : List Text}, (x :: l).Pairwise (· < ·) → x ∉ l := fun h mem =>
        List.lt_irrefl x (List.rel_of_pairwise_cons h mem)
      constructor
      · intro mem
        rcases List.mem_cons.mp ((same name).mp (List.mem_cons_of_mem x mem)) with rfl | mem'
        · exact absurd mem (irrefl ha)
        · exact mem'
      · intro mem
        rcases List.mem_cons.mp ((same name).mpr (List.mem_cons_of_mem x mem)) with rfl | mem'
        · exact absurd mem (irrefl hb)
        · exact mem'

theorem ext {s t : NameSet} (same : ∀ name, name ∈ s ↔ name ∈ t) : s = t := by
  cases s; cases t
  simpa using toList_ext (by assumption) (by assumption) same

end NameSet
end PluginAudit
