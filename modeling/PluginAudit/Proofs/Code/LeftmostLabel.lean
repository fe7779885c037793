import PluginAudit.Proofs.Code.Leftmost
import PluginAudit.Proofs.Code.Spelling

/-!
# Leftmost labels

A keyword introduces a literal wherever it does not continue an identifier and white space and a complete literal
follow (`Introduces`), and such places may overlap. The search finds exactly the leftmost literals that are
introduced (`labels_iff_leftmost`).
-/
namespace PluginAudit.Code

/-- A keyword stands at a byte offset after a text that does not end in an identifier, and white space and a
    complete literal follow it. -/
def Introduces (keyword source : Text) (start : Nat) (l : Literal) : Prop :=
  ∃ before gap after, source = before ++ keyword ++ gap ++ quoted l.items ++ after ∧ Apart before ∧
    gap.blank ∧ gap ≠ [] ∧ (∀ item ∈ l.items, item.Proper) ∧ l.terminated ∧ before.byteSize = start ∧
    (before ++ keyword ++ gap).byteSize = l.start

/-- What is introduced comes to its literal, and the search goes on after that. -/
def LabelEnds (l : Literal) (outcome : Option (Literal × Nat)) : Prop := outcome = some (l, l.stop)

/-- The literals from a position on, when each is the leftmost that is introduced after the one before it. -/
abbrev LeftmostLabels (keyword source : Text) : Nat → List Literal → Prop :=
  Leftmost (Introduces keyword source) LabelEnds

variable {keyword source u t before after gap : Text} {position start start' : Nat} {l l' : Literal} {ls : List Literal}

/-- White space before a literal, and the literal, are determined by the text that they stand in. -/
theorem gap_quoted_inj {gap' : Text} {items items' : List Item} (white : gap.blank) (white' : gap'.blank)
    (proper : ∀ item ∈ items, item.Proper) (proper' : ∀ item ∈ items', item.Proper) {after' : Text}
    (same : gap ++ (quoted items ++ after) = gap' ++ (quoted items' ++ after')) : gap = gap' ∧ items = items' := by
  have blanks : ∀ {gap : Text} {items : List Item} {after : Text}, gap.blank →
      (gap ++ (quoted items ++ after)).takeWhile isBlank = gap := by
    intro gap items after white
    rw [List.takeWhile_append_of_pos fun c mem => Text.isBlank_of_mem white mem, takeWhile_quoted, List.append_nil]
  have gaps : gap = gap' := by rw [← blanks white, same, blanks white']
  subst gaps
  have leading := leading?_quoted proper after
  rw [List.append_cancel_left same, leading?_quoted proper' after'] at leading
  exact ⟨rfl, (Literal.mk.inj (Option.some.inj leading)).1.symm⟩

theorem Introduces.literal_eq (introduces : Introduces keyword source start l)
    (introduces' : Introduces keyword source start l') : l = l' := by
  obtain ⟨before, gap, after, rfl, -, white, -, proper, terminated, rfl, place⟩ := introduces
  obtain ⟨before', gap', after', same, -, white', -, proper', terminated', size, place'⟩ := introduces'
  simp only [List.append_assoc] at same
  obtain ⟨rfl, tail⟩ := Text.append_inj_of_byteSize same size.symm
  obtain ⟨rfl, items⟩ := gap_quoted_inj white white' proper proper' (List.append_cancel_left tail)
  obtain ⟨items', start', terminated''⟩ := l'
  obtain ⟨items'', start'', terminated'''⟩ := l
  simp_all

theorem exists_of_leading? (leading : leading? t = some l) (terminated : l.terminated) :
    ∃ rest, t = quoted l.items ++ rest ∧ ∀ item ∈ l.items, item.Proper := by
  rw [leading?.eq_def] at leading
  split at leading
  next body =>
    cases read : readItems body with
    | mk items ended =>
    rw [read] at leading
    obtain rfl := Option.some.inj leading
    cases ended with
    | none => cases terminated
    | some rest => exact ⟨rest, eq_quoted_of_readItems read, proper_of_readItems read⟩
  next => cases leading

/-- What is read after a keyword is rejected where it introduces no literal, and otherwise it is the literal. -/
theorem readLabel_cases (before after : Text) :
    (readLabel before.reverse after = .rejected ∧ ¬ ∃ gap items rest, after = gap ++ quoted items ++ rest ∧
      Apart before ∧ gap.blank ∧ gap ≠ [] ∧ ∀ item ∈ items, item.Proper) ∨
    ∃ gap items rest, after = gap ++ quoted items ++ rest ∧ Apart before ∧ gap.blank ∧ gap ≠ [] ∧
      (∀ item ∈ items, item.Proper) ∧
      readLabel before.reverse after = .found ⟨items, gap.byteSize, true⟩ (gap ++ quoted items).length := by
  by_cases label : ∃ gap items rest, after = gap ++ quoted items ++ rest ∧ Apart before ∧ gap.blank ∧ gap ≠ [] ∧
      ∀ item ∈ items, item.Proper
  · obtain ⟨gap, items, rest, rfl, apart, white, nonempty, proper⟩ := label
    exact .inr ⟨gap, items, rest, rfl, apart, white, nonempty, proper,
      readLabel_quoted ((apart_iff before).mp apart) white nonempty proper rest⟩
  · refine .inl ⟨?_, label⟩
    rw [readLabel]
    split
    next => rfl
    next apart =>
      dsimp only
      split
      next c gap l white leading =>
        split
        next terminated =>
          obtain ⟨rest, eq, proper⟩ := exists_of_leading? leading terminated
          refine absurd ⟨after.takeWhile isBlank, l.items, rest, ?_, ?_, List.all_takeWhile, by simp [white], proper⟩ label
          · rw [List.append_assoc, ← eq, List.takeWhile_append_dropWhile]
          · simpa [apart_iff] using apart
        next => rfl
      next => rfl

/-- The literal that is found when it is read after a keyword. -/
def labelAt (found : Nat × Literal) : Literal := found.2.shift found.1

def labelsFrom (keyword u t : Text) : List Literal := itemsFrom keyword readLabel labelAt u t

theorem labels_eq_labelsFrom (keyword t : Text) : labels keyword t = labelsFrom keyword [] t :=
  map_occurrences_eq ..

theorem labelsFrom_passes {v : Text} (passes : Passes keyword readLabel u.reverse v t) :
    labelsFrom keyword u (v ++ t) = labelsFrom keyword (u ++ v) t :=
  itemsFrom_passes passes

theorem labelsFrom_found {items : List Item} {rest : Text} (nonempty : keyword ≠ [])
    (found : readLabel u.reverse (gap ++ quoted items ++ rest) =
      .found ⟨items, gap.byteSize, true⟩ (gap ++ quoted items).length) :
    labelsFrom keyword u (keyword ++ (gap ++ quoted items ++ rest)) =
      ⟨items, (u ++ keyword ++ gap).byteSize, true⟩ :: labelsFrom keyword (u ++ keyword ++ gap ++ quoted items) rest := by
  rw [labelsFrom, itemsFrom_read nonempty found, List.take_left, List.drop_left, labelsFrom]
  simp [labelAt, Literal.shift, Nat.add_assoc]

theorem stop_quoted (u : Text) (items : List Item) :
    Literal.stop ⟨items, u.byteSize, true⟩ = (u ++ quoted items).byteSize := by
  rw [Literal.stop, spelling_terminated, Text.byteSize_append]

theorem Introduces.slice (introduces : Introduces keyword source start l) :
    start ≤ l.start ∧ source.Slice l.start l.stop (quoted l.items) := by
  obtain ⟨before, gap, after, rfl, -, -, -, -, terminated, rfl, place⟩ := introduces
  obtain ⟨items, offset, _⟩ := l
  obtain rfl : (before ++ keyword ++ gap).byteSize = offset := place
  obtain rfl : _ = true := terminated
  refine ⟨?_, _, after, rfl, rfl, (stop_quoted _ items).symm⟩
  simp only [Text.byteSize_append]
  omega

theorem Introduces.lt_stop (introduces : Introduces keyword source start l) : start < l.stop :=
  Nat.lt_of_le_of_lt introduces.slice.1 l.start_lt_stop

theorem orderly_labels (keyword source : Text) : Orderly (Introduces keyword source) LabelEnds where
  determined := Introduces.literal_eq
  functional ends ends' := ends.trans ends'.symm
  forward introduces ends := by
    cases ends
    exact Nat.le_of_lt introduces.lt_stop

/-- What is read of keywords is what is introduced. -/
theorem finds_labels (keyword source : Text) :
    Finds keyword readLabel labelAt source (Introduces keyword source) LabelEnds where
  occurs := by
    rintro start l ⟨before, gap, after, split, apart, -, -, -, -, size, -⟩
    exact ⟨before, gap ++ quoted l.items ++ after, by simp [split], apart, size⟩
  rejected := by
    rintro u after split rejected l ⟨before, gap, after', same, apart, white, nonempty, proper, -, size, -⟩
    have occurs : u ++ (keyword ++ after) = before ++ (keyword ++ (gap ++ quoted l.items ++ after')) := by
      simpa using split.symm.trans same
    obtain ⟨rfl, tail⟩ := Text.append_inj_of_byteSize occurs size.symm
    obtain rfl := List.append_cancel_left tail
    cases rejected.symm.trans (readLabel_quoted ((apart_iff u).mp apart) white nonempty proper after')
  unfinished := by
    rintro u after - unfinished
    rcases readLabel_cases u after with ⟨read, -⟩ | ⟨_, _, _, -, -, -, -, -, read⟩ <;> cases unfinished.symm.trans read
  found := by
    rintro u after l length rfl found
    rcases readLabel_cases u after with ⟨read, -⟩ | ⟨gap, items, rest, rfl, apart, white, nonempty, proper, read⟩
    · cases found.symm.trans read
    · cases found.symm.trans read
      have place : (u ++ keyword).byteSize + gap.byteSize = (u ++ keyword ++ gap).byteSize :=
        (Text.byteSize_append ..).symm
      refine ⟨⟨items, (u ++ keyword ++ gap).byteSize, true⟩,
        ⟨u, gap, rest, by simp, apart, white, nonempty, proper, rfl, rfl, rfl⟩, ?_⟩
      rw [List.take_left, labelAt, Literal.shift, place, LabelEnds, stop_quoted, List.append_assoc _ gap]

theorem LeftmostLabels.introduced (leftmost : LeftmostLabels keyword source position ls) :
    ∀ l ∈ ls, ∃ start, position ≤ start ∧ Introduces keyword source start l := by
  intro l mem
  obtain ⟨start, l', next, reached, introduces, ends⟩ := leftmost.exists_candidate (orderly_labels keyword source) l mem
  cases ends
  exact ⟨start, reached, introduces⟩

theorem LeftmostLabels.pairwise (leftmost : LeftmostLabels keyword source position ls) :
    ls.Pairwise fun first second => first.start < second.start ∧ first.stop ≤ second.start := by
  refine Leftmost.pairwise (orderly_labels keyword source) leftmost ?_
  intro start l first next start' l' second next' _ ends introduces' ends' after
  cases ends
  cases ends'
  have before := introduces'.slice.1
  have inside := l.start_lt_stop
  exact ⟨by omega, by omega⟩

section
variable (nonempty : keyword ≠ []) (identifier : Identifier keyword)
include nonempty identifier

/-- No literal is introduced from inside the keyword of another, or from the white space after it. -/
theorem Introduces.start_le (introduces : Introduces keyword source start l)
    (introduces' : Introduces keyword source start' l') (lt : start < start') : l.start ≤ start' := by
  obtain ⟨before, gap, after, rfl, -, white, -, -, -, rfl, place⟩ := introduces
  obtain ⟨before', gap', after', same, apart, -, -, -, -, rfl, -⟩ := introduces'
  have split : before ++ (keyword ++ (gap ++ quoted l.items ++ after)) =
      before' ++ (keyword ++ (gap' ++ quoted l'.items ++ after')) := by simpa using same
  have behind := byteSize_le_of_apart identifier split apart lt
  rw [← List.append_assoc] at split
  obtain ⟨v, rfl, rest⟩ := Text.exists_append_of_byteSize_le split behind
  rw [List.append_assoc] at rest
  rw [← place]
  rcases List.append_eq_append_iff.mp rest with ⟨m, rfl, -⟩ | ⟨m, rfl, tail⟩
  · simp only [Text.byteSize_append]
    omega
  · cases m with
    | nil => simp
    | cons c m =>
      -- the keyword would begin with white space
      cases keyword with
      | nil => exact absurd rfl nonempty
      | cons d others =>
        obtain ⟨rfl, -⟩ := List.cons.inj tail
        have solid := not_isBlank_of_isIdentifierChar (identifier d (by simp))
        rw [Text.isBlank_of_mem white (by simp)] at solid
        cases solid

/-- What is introduced is found, unless its keyword begins in a literal that is found. -/
theorem LeftmostLabels.mem_or_covers (leftmost : LeftmostLabels keyword source 0 ls)
    (introduces : Introduces keyword source start l) : l ∈ ls ∨ ∃ l' ∈ ls, l'.Covers start := by
  rcases leftmost.mem_or (orderly_labels keyword source) introduces (Nat.zero_le start) with
    ⟨l', mem, next, ends⟩ | ⟨l', mem, start', _, next, introduces', ends, later, inside⟩ | ⟨_, _, -, ends, -⟩
  · cases ends
    exact .inl mem
  · cases ends
    exact .inr ⟨l', mem, introduces'.start_le nonempty identifier introduces later, inside⟩
  · cases ends

end

/-- The search finds the leftmost labels of every text and nothing else. Each is terminated, stands at its span and has
    the value that is spelled there; the spans follow each other. A literal that is introduced is missed only if
    its keyword begins in a literal that is found. -/
theorem labels_iff_leftmost (nonempty : keyword ≠ []) (identifier : Identifier keyword) (source : Text) :
    (∀ found, LeftmostLabels keyword source 0 found ↔ found = labels keyword source) ∧
    (∀ l ∈ labels keyword source, l.terminated ∧ ∃ body, source.Slice l.start l.stop ('"' :: (body ++ ['"'])) ∧
      Spells body l.value l.unrecognized) ∧
    (labels keyword source).Pairwise (fun first second => first.start < second.start ∧ first.stop ≤ second.start) ∧
    ∀ start l, Introduces keyword source start l →
      l ∈ labels keyword source ∨ ∃ l' ∈ labels keyword source, l'.Covers start := by
  have leftmost : LeftmostLabels keyword source 0 (labels keyword source) :=
    (finds_labels keyword source).leftmost nonempty identifier
  refine ⟨fun found => ⟨fun leftmost' => leftmost'.unique (orderly_labels keyword source) leftmost, ?_⟩,
    fun l mem => ?_, leftmost.pairwise, ?_⟩
  · rintro rfl
    exact leftmost
  · obtain ⟨start, -, introduces⟩ := leftmost.introduced l mem
    have slice := introduces.slice.2
    obtain ⟨-, -, -, -, -, -, -, proper, terminated, -⟩ := introduces
    exact ⟨terminated, _, slice, spells_items proper⟩
  · intro start l introduces
    exact leftmost.mem_or_covers nonempty identifier introduces

/-- The keywords inside `aaa`, before a quote and before a literal that does not end introduce nothing, and one in a
    literal is part of it. -/
theorem leftmostLabels_overlapping : lit "aa" ≠ [] ∧ Identifier (lit "aa") ∧
    LeftmostLabels (lit "aa") (lit "aaa \"x\" aa \"aa \\\"\" aa\"y\" aa \"z\" aa \"w") 0
      [⟨[.plain 'a', .plain 'a', .plain ' ', .escaped '"'], 11, true⟩, ⟨[.plain 'z'], 28, true⟩] := by
  have nonempty : lit "aa" ≠ [] := by decide
  have identifier : Identifier (lit "aa") := by decide
  have found : [⟨[.plain 'a', .plain 'a', .plain ' ', .escaped '"'], 11, true⟩, ⟨[.plain 'z'], 28, true⟩] =
      labels (lit "aa") (lit "aaa \"x\" aa \"aa \\\"\" aa\"y\" aa \"z\" aa \"w") := by
    decide +kernel
  exact ⟨nonempty, identifier, ((labels_iff_leftmost nonempty identifier _).1 _).mpr found⟩

end PluginAudit.Code
