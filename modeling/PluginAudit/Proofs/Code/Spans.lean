import PluginAudit.Proofs.Code.OffsetLiterals

/-!
# What offsets and spans delimit

The offset of the argument text of a call and the spans of literals are byte offsets in the text that was searched,
and what stands there is what was found (`delimited_of_mem_blocks`, `delimited_of_mem_literals`,
`delimited_of_single?`, `delimited_of_mem_labels`).
-/
namespace PluginAudit.Code

/-- The argument text of a call stands at its offset, between parentheses. -/
structure Block.Delimited (source : Text) (block : Block) : Prop where
  text : source.Slice block.offset block.stop block.text
  opened : source.Slice (block.offset - 1) block.offset ['(']
  closed : source.Slice block.stop (block.stop + 1) [')']

/-- A literal begins with a quote at its start. If it is complete, it ends with another quote, and the text of
    its span is by itself a literal of the same value with the same unknown escapes. -/
structure Literal.Delimited (source : Text) (l : Literal) : Prop where
  opened : ∃ rest, source.Slice l.start l.stop ('"' :: rest)
  closed : l.terminated → ∃ inner, source.Slice l.start l.stop ('"' :: (inner ++ ['"'])) ∧
    ∃ l', single? ('"' :: (inner ++ ['"'])) = some l' ∧ l'.value = l.value ∧ l'.unrecognized = l.unrecognized

variable {marker : Marker} {keyword source t before after : Text} {block : Block} {l : Literal}

theorem Block.Delimited.of_split {inner : Text} (split : source = before ++ ['('] ++ inner ++ [')'] ++ after) :
    Block.Delimited source ⟨(before ++ ['(']).byteSize, inner⟩ := by
  have opening : (before ++ ['(']).byteSize = before.byteSize + 1 := Text.byteSize_append ..
  have stop : Block.stop ⟨(before ++ ['(']).byteSize, inner⟩ = (before ++ ['('] ++ inner).byteSize :=
    (Text.byteSize_append ..).symm
  refine ⟨?_, ?_, ?_⟩
  · exact ⟨before ++ ['('], [')'] ++ after, by rw [split, List.append_assoc _ [')']], rfl, stop.symm⟩
  · refine ⟨before, inner ++ [')'] ++ after, by simp [split], ?_, rfl⟩
    rw [opening, Nat.add_sub_cancel]
  · refine ⟨before ++ ['('] ++ inner, after, split, stop.symm, ?_⟩
    rw [stop, Text.byteSize_append]
    rfl

theorem Literal.Delimited.of_split (split : source = before ++ l.spelling ++ after) (place : before.byteSize = l.start)
    (proper : l.terminated → ∀ item ∈ l.items, item.Proper) : l.Delimited source := by
  have slice : source.Slice l.start l.stop l.spelling :=
    ⟨before, after, split, place, by rw [Text.byteSize_append, place, Literal.stop]⟩
  refine ⟨⟨_, slice⟩, fun terminated => ⟨l.items.flatMap Item.spelling, ?_, ?_⟩⟩
  · rwa [Literal.spelling, if_pos terminated] at slice
  · exact ⟨⟨l.items, 0, true⟩, single?_quoted (proper terminated), rfl, rfl⟩

theorem delimited_of_mem_blocks (mem : block ∈ blocks marker source) : block.Delimited source := by
  obtain ⟨⟨nameEnd, gapEnd, text⟩, listed, rfl⟩ := List.mem_map.mp mem
  obtain ⟨before, after, length, rfl, place, found⟩ := exists_split_of_mem_occurrences listed
  obtain rfl : nameEnd = _ := place
  rcases marker.read_cases before after with
    ⟨rejected, -⟩ | ⟨gap, rest, rfl, -, -, ⟨unfinished, -⟩ | ⟨inner, last, read, closed⟩⟩
  · cases rejected.symm.trans found
  · cases unfinished.symm.trans found
  · cases read.symm.trans found
    obtain rfl := eq_of_balanced? closed
    have offset : (before ++ marker.name).byteSize + (gap.byteSize + 1) =
        (before ++ marker.name ++ gap ++ ['(']).byteSize := by
      rw [← Nat.add_assoc, ← Text.byteSize_append, Text.byteSize_append _ ['(']]
      rfl
    have split : before ++ marker.name ++ (gap ++ '(' :: (text ++ ')' :: last)) =
        before ++ marker.name ++ gap ++ ['('] ++ text ++ [')'] ++ last := by
      simp
    dsimp only
    rw [offset]
    exact .of_split split

theorem delimited_of_mem_labels (mem : l ∈ labels keyword source) : l.Delimited source := by
  obtain ⟨⟨keywordEnd, found⟩, listed, rfl⟩ := List.mem_map.mp mem
  obtain ⟨before, after, length, rfl, place, reading⟩ := exists_split_of_mem_occurrences listed
  obtain rfl : keywordEnd = _ := place
  rcases readLabel_cases before after with ⟨rejected, -⟩ | ⟨gap, items, rest, rfl, -, -, -, proper, read⟩
  · cases rejected.symm.trans reading
  · cases read.symm.trans reading
    have split : before ++ keyword ++ (gap ++ quoted items ++ rest) = before ++ keyword ++ gap ++ quoted items ++ rest := by
      simp
    exact .of_split split (Text.byteSize_append ..) fun _ => proper

theorem delimited_of_mem_literals (mem : l ∈ literals t) : l.Delimited t := by
  obtain ⟨before, after, -, split, place, -, read⟩ := exists_read_of_mem_literalsFrom mem 0
  exact .of_split split (by omega) read.proper

theorem delimited_of_single? (single : single? t = some l) : l.Delimited t := by
  obtain ⟨items, proper, trimmed, rfl⟩ := single?_eq_some_iff.mp single
  obtain ⟨gap, -, kept⟩ := t.exists_trim_append_blank
  have split : t = t.takeWhile isBlank ++ t.trim ++ gap := by
    rw [List.append_assoc, ← kept, Text.trimStart, List.takeWhile_append_dropWhile]
  rw [trimmed, ← spelling_terminated items (Text.byteSize (t.takeWhile isBlank))] at split
  exact .of_split split rfl fun _ => proper

/-- The parenthesis that closes another is searched from every boundary of a text, and found where it stands. -/
theorem exists_closingOffset {body : Nat} (boundary : t.Boundary body) : ∃ found, closingOffset t body = .ok found ∧
    ∀ close ∈ found, body ≤ close ∧ t.Slice close (close + 1) [')'] := by
  obtain ⟨before, rest, rfl, rfl⟩ := boundary
  refine ⟨_, closingOffset_append before rest, fun close mem => ?_⟩
  obtain ⟨⟨inner, after⟩, closed, rfl⟩ := Option.map_eq_some_iff.mp mem
  obtain rfl := eq_of_balanced? closed
  have place : (before ++ inner).byteSize = before.byteSize + inner.byteSize := Text.byteSize_append ..
  refine ⟨Nat.le_add_right _ _, before ++ inner, after, by simp, place, ?_⟩
  rw [Text.byteSize_append, place]
  rfl

/-- What byte offsets report of a text: no cut fails on the way, what is found is what reading character by
    character finds, and the offsets and spans delimit it. -/
structure Truthful (marker : Marker) (keyword t : Text) : Prop where
  callsRun : ∀ found, Runs (marker.turn t) 0 found ↔ found = blocks marker t
  argumentsCut : argumentsAt t = .ok (arguments t)
  literalsRun : ∀ found, Runs (literalTurn t) 0 found ↔ found = (literals t).map Literal.spanned
  singleRuns : ∃ found, Runs (literalTurn t.trim) 0 found ∧ alone? t found = (single? t).map Literal.spanned
  labelsRun : ∀ found, Runs (labelTurn keyword t) 0 found ↔ found = (labels keyword t).map Literal.spanned
  closing : ∀ body, t.Boundary body → ∃ found, closingOffset t body = .ok found ∧
    ∀ close ∈ found, body ≤ close ∧ t.Slice close (close + 1) [')']
  callDelimited : ∀ block ∈ blocks marker t, block.Delimited t
  literalDelimited : ∀ l ∈ literals t, l.Delimited t
  singleDelimited : ∀ l ∈ single? t, l.Delimited t
  labelDelimited : ∀ l ∈ labels keyword t, l.Delimited t

/-- Offsets and spans are truthful on every text, whatever is looked for. -/
theorem offsets_truthful (marker : Marker) (keyword t : Text) : Truthful marker keyword t where
  callsRun _ := (marker.runs_turn t).iff_eq
  argumentsCut := argumentsAt_eq t
  literalsRun _ := (literalTurn_runs t).iff_eq
  singleRuns := ⟨_, literalTurn_runs t.trim, alone?_literals t⟩
  labelsRun _ := (labelTurn_runs keyword t).iff_eq
  closing _ := exists_closingOffset
  callDelimited _ := delimited_of_mem_blocks
  literalDelimited _ := delimited_of_mem_literals
  singleDelimited _ := delimited_of_single?
  labelDelimited _ := delimited_of_mem_labels

example : (blocks (.creation (lit "Ä")) (lit "é\u3000new\u3000Ä\u2003(\"ß\")")).map (fun b => (b.offset, b.stop)) =
    [(17, 21)] := by decide +kernel

end PluginAudit.Code
