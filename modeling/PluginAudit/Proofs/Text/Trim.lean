import PluginAudit.Text.Blank
import PluginAudit.Text.Numeral
import Mathlib.Data.List.TakeWhile

/-!
# White space at the ends of a text

White space around a text does not change what trimming leaves of it, and trimming again does nothing (`trim_trim`).
No letter and no numeral is white space.
-/
namespace PluginAudit.Text

theorem isBlank_of_mem {gap : Text} (white : gap.blank) {c : Char} (mem : c ∈ gap) : isBlank c :=
  List.all_eq_true.mp white c mem

theorem blank_cons_iff {c : Char} {t : Text} : blank (c :: t) ↔ isBlank c ∧ blank t := by
  rw [blank, List.all_cons, Bool.and_eq_true]
  rfl

theorem blank_append_iff {s t : Text} : blank (s ++ t) ↔ blank s ∧ blank t := by
  rw [blank, List.all_append, Bool.and_eq_true]
  rfl

theorem trim_blank_append {gap : Text} (white : gap.blank) (t : Text) : trim (gap ++ t) = trim t := by
  unfold trim trimStart
  rw [List.dropWhile_append_of_pos fun c mem => isBlank_of_mem white mem]

theorem trim_append_blank {gap : Text} (white : gap.blank) (t : Text) : trim (t ++ gap) = trim t := by
  have reversed : ∀ c ∈ gap.reverse, isBlank c := fun c mem => isBlank_of_mem white (List.mem_reverse.mp mem)
  have trailing : ∀ s : Text, trimEnd (s ++ gap) = trimEnd s := by
    intro s
    unfold trimEnd
    rw [List.reverse_append, List.dropWhile_append_of_pos reversed]
  unfold trim trimStart
  by_cases empty : t.dropWhile isBlank = []
  · -- nothing is left of the text, so the gap is dropped from the front
    have gone : gap.dropWhile isBlank = [] := List.dropWhile_eq_nil_iff.mpr fun c mem => isBlank_of_mem white mem
    rw [List.dropWhile_append, empty]
    simp [gone]
  · rw [List.dropWhile_append, if_neg (by simpa using empty), trailing]

theorem trimStart_append (s : Text) {t : Text} (first : ∀ c ∈ t.head?, isBlank c = false) :
    trimStart (s ++ t) = trimStart s ++ t := by
  have kept : t.dropWhile isBlank = t := by
    cases t with
    | nil => rfl
    | cons c t => rw [List.dropWhile_cons_of_neg (by simp [first c rfl])]
  unfold trimStart
  rw [List.dropWhile_append, kept]
  split <;> simp_all

theorem trimEnd_append {s : Text} (last : ∀ c ∈ s.getLast?, isBlank c = false) (t : Text) :
    trimEnd (s ++ t) = s ++ trimEnd t := by
  have reversed := trimStart_append t.reverse (t := s.reverse) (by simpa using last)
  unfold trimStart at reversed
  unfold trimEnd
  rw [List.reverse_append, reversed, List.reverse_append, List.reverse_reverse]

/-- A text between characters that are not white space keeps its ends. -/
theorem trim_eq_self {t : Text} (first : ∀ c ∈ t.head?, isBlank c = false)
    (last : ∀ c ∈ t.getLast?, isBlank c = false) : trim t = t := by
  have start := trimStart_append [] first
  have stop := trimEnd_append last []
  rw [List.nil_append] at start
  rw [List.append_nil] at stop
  rw [trim, start]
  simpa [trimStart, trimEnd] using stop

theorem exists_trim_append_blank (t : Text) : ∃ after : Text, after.blank ∧ t.trimStart = t.trim ++ after := by
  refine ⟨(t.trimStart.reverse.takeWhile isBlank).reverse, ?_, ?_⟩
  · rw [blank, List.all_reverse]
    exact List.all_takeWhile
  · rw [trim, trimEnd, ← List.reverse_append, List.takeWhile_append_dropWhile, List.reverse_reverse]

/-- A text is what trimming leaves of it, with white space around. -/
theorem exists_blank_trim_blank (t : Text) :
    ∃ before after : Text, before.blank ∧ after.blank ∧ t = before ++ t.trim ++ after := by
  obtain ⟨after, white, kept⟩ := exists_trim_append_blank t
  refine ⟨t.takeWhile isBlank, after, List.all_takeWhile, white, ?_⟩
  rw [List.append_assoc, ← kept]
  exact List.takeWhile_append_dropWhile.symm

theorem not_isBlank_of_mem_head?_dropWhile {t : Text} {c : Char} (mem : c ∈ (t.dropWhile isBlank).head?) :
    isBlank c = false := by
  have first := List.head?_dropWhile_not isBlank t
  rw [Option.mem_def.mp mem] at first
  simpa using first

theorem not_isBlank_of_mem_head?_trim {t : Text} {c : Char} (mem : c ∈ t.trim.head?) : isBlank c = false := by
  obtain ⟨after, -, kept⟩ := exists_trim_append_blank t
  refine not_isBlank_of_mem_head?_dropWhile (t := t) ?_
  rw [← trimStart, kept, List.head?_append, Option.mem_def.mp mem]
  rfl

theorem not_isBlank_of_mem_getLast?_trim {t : Text} {c : Char} (mem : c ∈ t.trim.getLast?) : isBlank c = false := by
  rw [trim, trimEnd, List.getLast?_reverse] at mem
  exact not_isBlank_of_mem_head?_dropWhile mem

@[simp] theorem trim_trim (t : Text) : t.trim.trim = t.trim :=
  trim_eq_self (fun _ mem => not_isBlank_of_mem_head?_trim mem) fun _ mem => not_isBlank_of_mem_getLast?_trim mem

theorem trim_of_no_blank {t : Text} (solid : ∀ c ∈ t, isBlank c = false) : trim t = t :=
  trim_eq_self (fun c mem => solid c (List.mem_of_mem_head? mem)) fun c mem => solid c (List.mem_of_getLast? mem)

/-- The code points of white space, one by one. -/
def blankCodes : List Nat :=
  whiteSpace.intervals.flatMap fun range => (List.range (range.2 - range.1 + 1)).map (range.1 + ·)

theorem mem_blankCodes {c : Char} (white : isBlank c) : c.toNat ∈ blankCodes := by
  obtain ⟨range, mem, low, high⟩ := Ranges.holds_iff.mp white
  refine List.mem_flatMap.mpr ⟨range, mem, List.mem_map.mpr ⟨c.toNat - range.1, ?_, ?_⟩⟩
  · rw [List.mem_range]
    omega
  · show range.1 + (c.toNat - range.1) = c.toNat
    omega

theorem not_isAlphanumeric_of_isBlank {c : Char} (white : isBlank c) : isAlphanumeric c = false := by
  have every : ∀ n ∈ blankCodes, (alphabetic.holds n || numeric.holds n) = false := by decide +kernel
  exact every c.toNat (mem_blankCodes white)

end PluginAudit.Text

namespace PluginAudit

/-- A text of white space, which may be empty. -/
structure Gap where
  text : Text
  white : text.blank

namespace Gap

def none : Gap := ⟨[], rfl⟩

@[simp] theorem text_none : none.text = [] := rfl

def space : Gap := ⟨lit " ", by decide⟩

def lineFeed : Gap := ⟨lit "\n", by decide⟩

end Gap

/-- Texts with white space around each, which depends on its place. -/
def spaced (before after : Nat → Gap) (ts : List Text) : List Text :=
  ts.mapIdx fun i t => (before i).text ++ t ++ (after i).text

theorem spaced_cons (before after : Nat → Gap) (t : Text) (ts : List Text) :
    spaced before after (t :: ts) =
      ((before 0).text ++ t ++ (after 0).text) :: spaced (before ∘ Nat.succ) (after ∘ Nat.succ) ts := List.mapIdx_cons

theorem mem_spaced {before after : Nat → Gap} {ts : List Text} {s : Text} (mem : s ∈ spaced before after ts) :
    ∃ t ∈ ts, ∃ i, s = (before i).text ++ t ++ (after i).text := by
  obtain ⟨i, bound, rfl⟩ := List.exists_of_mem_mapIdx mem
  exact ⟨ts[i], List.getElem_mem bound, i, rfl⟩

theorem map_trim_spaced (before after : Nat → Gap) {ts : List Text} (tight : ∀ t ∈ ts, t.trim = t) :
    (spaced before after ts).map Text.trim = ts := by
  refine List.ext_getElem (by simp [spaced]) fun i _ bound => ?_
  simp only [spaced, List.getElem_map, List.getElem_mapIdx]
  rw [Text.trim_append_blank (after i).white, Text.trim_blank_append (before i).white,
    tight _ (List.getElem_mem bound)]

end PluginAudit
