import PluginAudit.Text.Basic

/-!
# Parts of a text between byte offsets

Between two byte offsets that do not fall inside a character, a text has exactly one part (`Slice.part_eq`). Of two
ways to cut a text, the one at the smaller offset cuts the first part of the other (`exists_append_of_byteSize_le`).
-/
namespace PluginAudit.Text

/-- A byte offset falls between two characters of a text, or at one of its ends. -/
def Boundary (t : Text) (offset : Nat) : Prop := ∃ before after, t = before ++ after ∧ before.byteSize = offset

/-- The part of a text between two byte offsets. -/
def Slice (t : Text) (start stop : Nat) (part : Text) : Prop :=
  ∃ before after, t = before ++ part ++ after ∧ before.byteSize = start ∧ (before ++ part).byteSize = stop

theorem eq_nil_of_byteSize_eq_zero {t : Text} (empty : t.byteSize = 0) : t = [] := by
  cases t with
  | nil => rfl
  | cons c t =>
    have := c.utf8Size_pos
    rw [byteSize_cons] at empty
    omega

/-- Of two cuts through a text, the one at the smaller offset cuts what is before the other. -/
theorem exists_append_of_byteSize_le {a b c d : Text} (same : a ++ b = c ++ d) (le : a.byteSize ≤ c.byteSize) :
    ∃ m, c = a ++ m ∧ b = m ++ d := by
  rcases List.append_eq_append_iff.mp same with ⟨m, cEq, bEq⟩ | ⟨m, aEq, dEq⟩
  · exact ⟨m, cEq, bEq⟩
  · have empty : byteSize m = 0 := by
      rw [aEq, byteSize_append] at le
      omega
    obtain rfl := eq_nil_of_byteSize_eq_zero empty
    exact ⟨[], by simpa using aEq.symm, by simpa using dEq.symm⟩

theorem append_inj_of_byteSize {a b c d : Text} (same : a ++ b = c ++ d) (size : a.byteSize = c.byteSize) :
    a = c ∧ b = d := by
  obtain ⟨m, rfl, rfl⟩ := exists_append_of_byteSize_le same (Nat.le_of_eq size)
  have empty : m.byteSize = 0 := by
    rw [byteSize_append] at size
    omega
  obtain rfl := eq_nil_of_byteSize_eq_zero empty
  simp

theorem exists_append_of_not_mem {a b c d : Text} {mark : Char} (same : a ++ mark :: b = c ++ d) (free : mark ∉ c) :
    ∃ m, a = c ++ m ∧ d = m ++ mark :: b := by
  rcases List.append_eq_append_iff.mp same with ⟨m, cEq, markEq⟩ | ⟨m, aEq, dEq⟩
  · cases m with
    | nil => exact ⟨[], by simpa using cEq.symm, by simpa using markEq.symm⟩
    | cons first m =>
      obtain ⟨rfl, -⟩ := List.cons.inj markEq
      exact absurd (by simp [cEq]) free
  · exact ⟨m, aEq, dEq⟩

/-- A cut after the one in front of a character is not before the one behind it. -/
theorem byteSize_concat_le {a b before after : Text} {c : Char} (same : a ++ c :: b = before ++ after)
    (lt : a.byteSize < before.byteSize) : (a ++ [c]).byteSize ≤ before.byteSize := by
  obtain ⟨m, rfl, eq⟩ := exists_append_of_byteSize_le same (Nat.le_of_lt lt)
  cases m with
  | nil => simp at lt
  | cons d m =>
    obtain ⟨rfl, -⟩ := List.cons.inj eq
    simp only [byteSize_append, byteSize_cons, byteSize_nil]
    omega

theorem Slice.part_eq {t part part' : Text} {start stop : Nat} (slice : t.Slice start stop part)
    (slice' : t.Slice start stop part') : part = part' := by
  obtain ⟨before, after, rfl, rfl, rfl⟩ := slice
  obtain ⟨before', after', same, startEq, stopEq⟩ := slice'
  rw [List.append_assoc, List.append_assoc] at same
  obtain ⟨rfl, rest⟩ := append_inj_of_byteSize same startEq.symm
  have size : part.byteSize = part'.byteSize := by simpa using stopEq.symm
  exact (append_inj_of_byteSize rest size).1

theorem Slice.stop_eq {t part : Text} {start stop : Nat} (slice : t.Slice start stop part) :
    stop = start + part.byteSize := by
  obtain ⟨before, after, -, rfl, rfl⟩ := slice
  rw [byteSize_append]

end PluginAudit.Text
