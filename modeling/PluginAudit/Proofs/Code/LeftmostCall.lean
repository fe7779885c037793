import PluginAudit.Proofs.Code.Closing
import PluginAudit.Proofs.Code.Leftmost
import PluginAudit.Proofs.Code.WrittenCall

/-!
# Leftmost calls

A call may begin wherever its name stands after a text that it may follow, and before white space and a parenthesis
(`Candidate`), and such places may overlap. The search finds exactly the leftmost calls up to one that is not closed
(`blocks_iff_leftmost`).
-/
namespace PluginAudit.Code

/-- The texts that the name of a call may follow. -/
inductive Marker.Follows : Marker → Text → Prop
  | call {name before : Text} (apart : Apart before) : Follows (.call name) before
  | creation {name before gap : Text} (apart : Apart before) (white : gap.blank) (nonempty : gap ≠ []) :
      Follows (.creation name) (before ++ lit "new" ++ gap)

/-- The name of a call stands at a byte offset after a text that it may follow, and its parenthesis opens
    after white space, just before another. -/
def Candidate (marker : Marker) (source : Text) (start body : Nat) : Prop :=
  ∃ before gap rest, source = before ++ marker.name ++ gap ++ '(' :: rest ∧ marker.Follows before ∧ gap.blank ∧
    before.byteSize = start ∧ (before ++ marker.name ++ gap ++ ['(']).byteSize = body

/-- A candidate comes to the block of a call and the place after its closing parenthesis, or to an end if it is
    not closed. -/
inductive CallEnds (source : Text) : Nat → Option (Block × Nat) → Prop
  | unclosed {body : Nat} (unclosed : closingOffset source body = .ok none) : CallEnds source body none
  | closed {body close : Nat} {text : Text} (closed : closingOffset source body = .ok (some close))
      (slice : source.Slice body close text) : CallEnds source body (some (⟨body, text⟩, close + 1))

/-- The blocks from a position on, when each is that of the leftmost candidate after the one before it. -/
abbrev LeftmostCalls (marker : Marker) (source : Text) : Nat → List Block → Prop :=
  Leftmost (Candidate marker source) (CallEnds source)

variable {marker : Marker} {source u t after : Text} {position start body : Nat}

theorem endsInNew_iff (before : Text) : endsInNew before.reverse ↔
    ∃ init gap : Text, before = init ++ lit "new" ++ gap ∧ Apart init ∧ gap.blank ∧ gap ≠ [] := by
  constructor
  · intro ends
    generalize eq : before.reverse = reversed at ends
    obtain rfl := List.reverse_eq_iff.mp eq
    cases reversed with
    | nil => simp [endsInNew] at ends
    | cons c others =>
      obtain ⟨white, ends⟩ := (Bool.and_eq_true ..).mp ends
      split at ends
      next init word =>
        have split : others = others.takeWhile isBlank ++ 'w' :: 'e' :: 'n' :: init := by
          rw [← word, List.takeWhile_append_dropWhile]
        refine ⟨init.reverse, (c :: others.takeWhile isBlank).reverse, ?_, ?_, ?_, by simp⟩
        · have word' : (lit "new").reverse = ['w', 'e', 'n'] := rfl
          rw [← List.reverse_inj]
          conv => lhs; rw [split]
          simp [word']
        · rw [apart_iff, List.reverse_reverse]
          simpa using ends
        · rw [Text.blank, List.all_reverse, List.all_cons, white, List.all_takeWhile]
          rfl
      next => cases ends
  · rintro ⟨init, gap, rfl, apart, white, nonempty⟩
    rw [List.append_assoc, List.reverse_append, endsInNew_append white nonempty, (apart_iff init).mp apart]
    rfl

theorem Marker.fits_iff (marker : Marker) (before : Text) : marker.fits before.reverse ↔ marker.Follows before := by
  cases marker with
  | call name =>
    have apart : (Marker.call name).fits before.reverse ↔ Apart before := by simp [Marker.fits, apart_iff]
    exact apart.trans ⟨.call, by rintro ⟨apart⟩; exact apart⟩
  | creation name =>
    refine (endsInNew_iff before).trans ⟨?_, ?_⟩
    · rintro ⟨init, gap, rfl, apart, white, nonempty⟩
      exact .creation apart white nonempty
    · rintro (- | ⟨apart, white, nonempty⟩)
      exact ⟨_, _, rfl, apart, white, nonempty⟩

theorem Marker.Follows.apart {before : Text} (follows : marker.Follows before) : Apart before := by
  cases follows with
  | call apart => exact apart
  | @creation name before gap apart white nonempty =>
    intro c mem
    obtain ⟨init, last, rfl⟩ := (List.eq_nil_or_concat gap).resolve_left nonempty
    rw [List.concat_eq_append] at mem white
    rw [← List.append_assoc, List.getLast?_concat] at mem
    obtain rfl := Option.some.inj mem
    exact noIdentifier_of_blank white last (by simp)

theorem gap_eq {gap : Text} (white : gap.blank) (rest : Text) :
    (gap ++ '(' :: rest).takeWhile isBlank = gap ∧ (gap ++ '(' :: rest).dropWhile isBlank = '(' :: rest := by
  have white' : ∀ c ∈ gap, isBlank c := fun c mem => Text.isBlank_of_mem white mem
  have solid : isBlank '(' = false := by decide
  rw [List.takeWhile_append_of_pos white', List.dropWhile_append_of_pos white']
  simp [solid]

theorem Candidate.body_eq {body' : Nat} (candidate : Candidate marker source start body)
    (candidate' : Candidate marker source start body') : body = body' := by
  obtain ⟨before, gap, rest, rfl, -, white, rfl, rfl⟩ := candidate
  obtain ⟨before', gap', rest', same, -, white', size, rfl⟩ := candidate'
  simp only [List.append_assoc] at same
  obtain ⟨rfl, tail⟩ := Text.append_inj_of_byteSize same size.symm
  have gaps := List.append_cancel_left tail
  have gapEq := (gap_eq white rest).1
  rw [gaps, (gap_eq white' rest').1] at gapEq
  rw [gapEq]

/-- What is read of a name is rejected where no call may begin. Otherwise it is the block of the call, or
    nothing more if the call is not closed. -/
theorem Marker.read_cases (marker : Marker) (before after : Text) :
    (marker.read before.reverse after = .rejected ∧
      ¬ ∃ gap rest, after = gap ++ '(' :: rest ∧ marker.Follows before ∧ gap.blank) ∨
    ∃ gap rest, after = gap ++ '(' :: rest ∧ marker.Follows before ∧ gap.blank ∧
      (marker.read before.reverse after = .unfinished ∧ balanced? (.nested 1) rest = none ∨
        ∃ inner last, marker.read before.reverse after =
            .found (gap.byteSize + 1, inner) (gap.length + inner.length + 2) ∧
          balanced? (.nested 1) rest = some (inner, last)) := by
  by_cases fits : marker.fits before.reverse
  · have follows := (marker.fits_iff before).mp fits
    by_cases opens : ∃ gap rest, after = gap ++ '(' :: rest ∧ gap.blank
    · obtain ⟨gap, rest, rfl, white⟩ := opens
      refine .inr ⟨gap, rest, rfl, follows, white, ?_⟩
      obtain ⟨blank, parenthesis⟩ := gap_eq white rest
      rw [Marker.read, if_pos fits, blank, parenthesis]
      cases closed : balanced? (.nested 1) rest with
      | none => exact .inl ⟨by simp [closed], rfl⟩
      | some pair => exact .inr ⟨pair.1, pair.2, by simp [closed], rfl⟩
    · refine .inl ⟨marker.read_rejected _ fun head => ?_, ?_⟩
      · cases eq : after.dropWhile isBlank with
        | nil => simp [eq] at head
        | cons c rest =>
          rw [eq] at head
          obtain rfl := Option.some.inj head
          exact opens ⟨after.takeWhile isBlank, rest, by rw [← eq, List.takeWhile_append_dropWhile], List.all_takeWhile⟩
      · rintro ⟨gap, rest, eq, -, white⟩
        exact opens ⟨gap, rest, eq, white⟩
  · refine .inl ⟨by rw [Marker.read, if_neg fits], ?_⟩
    rintro ⟨gap, rest, -, follows, -⟩
    exact fits ((marker.fits_iff before).mpr follows)

theorem Candidate.exists_split (candidate : Candidate marker (u ++ t) start body) (reached : u.byteSize ≤ start) :
    ∃ v gap rest, t = v ++ (marker.name ++ (gap ++ '(' :: rest)) ∧ marker.Follows (u ++ v) ∧ gap.blank ∧
      start = (u ++ v).byteSize := by
  obtain ⟨before, gap, rest, same, follows, white, rfl, -⟩ := candidate
  simp only [List.append_assoc] at same
  obtain ⟨v, rfl, eq⟩ := Text.exists_append_of_byteSize_le same reached
  exact ⟨v, gap, rest, eq, follows, white, rfl⟩

/-- The block that is found when a gap and an argument text are read after a name. -/
def blockAt (found : Nat × Nat × Text) : Block := ⟨found.1 + found.2.1, found.2.2⟩

/-- The blocks that the search finds from a place in a text on. -/
def blocksFrom (marker : Marker) (u t : Text) : List Block := itemsFrom marker.name marker.read blockAt u t

theorem blocks_eq_blocksFrom (marker : Marker) (t : Text) : blocks marker t = blocksFrom marker [] t :=
  map_occurrences_eq ..

theorem blocksFrom_passes {v : Text} (passes : Passes marker.name marker.read u.reverse v t) :
    blocksFrom marker u (v ++ t) = blocksFrom marker (u ++ v) t :=
  itemsFrom_passes passes

theorem blocksFrom_found {gap inner last : Text} (nonempty : marker.name ≠ [])
    (found : marker.read u.reverse (gap ++ '(' :: (inner ++ ')' :: last)) =
      .found (gap.byteSize + 1, inner) (gap.length + inner.length + 2)) :
    blocksFrom marker u (marker.name ++ (gap ++ '(' :: (inner ++ ')' :: last))) =
      ⟨(u ++ marker.name ++ gap ++ ['(']).byteSize, inner⟩ ::
        blocksFrom marker (u ++ marker.name ++ gap ++ ['('] ++ inner ++ [')']) last := by
  have split : gap ++ '(' :: (inner ++ ')' :: last) = gap ++ '(' :: (inner ++ [')']) ++ last := by simp
  have length : gap.length + inner.length + 2 = (gap ++ '(' :: (inner ++ [')'])).length := by
    simp only [List.length_append, List.length_cons, List.length_nil]
    omega
  have parenthesis : '('.utf8Size = 1 := rfl
  rw [split, length] at found
  rw [blocksFrom, split, itemsFrom_read nonempty found, List.take_left, List.drop_left, blocksFrom]
  simp [blockAt, parenthesis, Nat.add_assoc]

theorem CallEnds.of_unclosed {rest : Text} (unclosed : balanced? (.nested 1) rest = none) (u : Text) :
    CallEnds (u ++ '(' :: rest) (u ++ ['(']).byteSize none := by
  have closing := closingOffset_append (u ++ ['(']) rest
  rw [unclosed, ← List.append_cons] at closing
  exact .unclosed closing

theorem CallEnds.of_closed {inner last : Text}
    (closed : balanced? (.nested 1) (inner ++ ')' :: last) = some (inner, last)) (u : Text) :
    CallEnds (u ++ '(' :: (inner ++ ')' :: last)) (u ++ ['(']).byteSize
      (some (⟨(u ++ ['(']).byteSize, inner⟩, (u ++ '(' :: (inner ++ [')'])).byteSize)) := by
  have closing := closingOffset_append (u ++ ['(']) (inner ++ ')' :: last)
  rw [closed, ← List.append_cons, Option.map_some] at closing
  have parenthesis : ')'.utf8Size = 1 := rfl
  have next : (u ++ '(' :: (inner ++ [')'])).byteSize = (u ++ ['(']).byteSize + inner.byteSize + 1 := by
    simp [parenthesis, Nat.add_assoc]
  rw [next]
  exact .closed closing ⟨u ++ ['('], ')' :: last, by simp, rfl, Text.byteSize_append ..⟩

theorem Marker.finds (marker : Marker) (source : Text) :
    Finds marker.name marker.read blockAt source (Candidate marker source) (CallEnds source) where
  occurs := by
    rintro start body ⟨before, gap, rest, split, follows, -, size, -⟩
    exact ⟨before, gap ++ '(' :: rest, by simp [split], follows.apart, size⟩
  rejected := by
    rintro u after split rejected body ⟨before, gap, rest, same, follows, white, size, -⟩
    have occurs : u ++ (marker.name ++ after) = before ++ (marker.name ++ (gap ++ '(' :: rest)) := by
      simpa using split.symm.trans same
    obtain ⟨rfl, tail⟩ := Text.append_inj_of_byteSize occurs size.symm
    rcases marker.read_cases u after with ⟨-, noCall⟩ | ⟨_, _, -, -, -, ⟨read, -⟩ | ⟨_, _, read, -⟩⟩
    · exact noCall ⟨gap, rest, List.append_cancel_left tail, follows, white⟩
    · cases rejected.symm.trans read
    · cases rejected.symm.trans read
  unfinished := by
    rintro u after rfl unfinished
    rcases marker.read_cases u after with ⟨read, -⟩ | ⟨gap, rest, rfl, follows, white, ⟨-, unclosed⟩ | ⟨_, _, read, -⟩⟩
    · cases unfinished.symm.trans read
    · refine ⟨_, ⟨u, gap, rest, by simp, follows, white, rfl, rfl⟩, ?_⟩
      simpa using CallEnds.of_unclosed unclosed (u ++ marker.name ++ gap)
    · cases unfinished.symm.trans read
  found := by
    rintro u after ⟨gapEnd, text⟩ length rfl found
    rcases marker.read_cases u after with ⟨read, -⟩ | ⟨gap, rest, rfl, follows, white, ⟨read, -⟩ | ⟨inner, last, read, closed⟩⟩
    · cases found.symm.trans read
    · cases found.symm.trans read
    · cases found.symm.trans read
      obtain ⟨rfl, -⟩ := balanced?_eq_some_iff.mp closed
      have call : gap ++ '(' :: (text ++ ')' :: last) = gap ++ '(' :: (text ++ [')']) ++ last := by simp
      have length : gap.length + text.length + 2 = (gap ++ '(' :: (text ++ [')'])).length := by simp; omega
      have parenthesis : '('.utf8Size = 1 := rfl
      have ends := CallEnds.of_closed closed (u ++ marker.name ++ gap)
      refine ⟨_, ⟨u, gap, text ++ ')' :: last, by simp, follows, white, rfl, rfl⟩, ?_⟩
      rw [length, call, List.take_left, ← call]
      simpa [blockAt, parenthesis, Nat.add_assoc] using ends

theorem CallEnds.functional {outcome outcome' : Option (Block × Nat)} (ends : CallEnds source body outcome)
    (ends' : CallEnds source body outcome') : outcome = outcome' := by
  cases ends with
  | unclosed unclosed =>
    cases ends' with
    | unclosed _ => rfl
    | closed closed _ => cases unclosed.symm.trans closed
  | closed closed slice =>
    cases ends' with
    | unclosed unclosed => cases unclosed.symm.trans closed
    | closed closed' slice' =>
      cases closed.symm.trans closed'
      rw [slice.part_eq slice']

/-- The byte offset after the argument text of a call. -/
def Block.stop (block : Block) : Nat := block.offset + block.text.byteSize

/-- A byte offset is not in the argument text of any of some calls. -/
def Outside (blocks : List Block) (place : Nat) : Prop :=
  ∀ block ∈ blocks, ¬ (block.offset ≤ place ∧ place < block.stop)

theorem Candidate.lt (candidate : Candidate marker source start body) : start < body := by
  obtain ⟨before, gap, rest, -, -, -, rfl, rfl⟩ := candidate
  simp only [Text.byteSize_append, Text.byteSize_cons]
  have := '('.utf8Size_pos
  omega

theorem Candidate.le_next {block : Block} {next : Nat} (candidate : Candidate marker source start body)
    (ends : CallEnds source body (some (block, next))) : start ≤ next := by
  have lt := candidate.lt
  cases ends with
  | closed _ slice =>
    have stop := slice.stop_eq
    omega

theorem orderly_calls (marker : Marker) (source : Text) : Orderly (Candidate marker source) (CallEnds source) where
  determined := Candidate.body_eq
  functional := CallEnds.functional
  forward := Candidate.le_next

theorem LeftmostCalls.pairwise {found : List Block} (leftmost : LeftmostCalls marker source position found) :
    found.Pairwise fun first second => first.offset < second.offset ∧ first.stop < second.offset := by
  refine Leftmost.pairwise (orderly_calls marker source) leftmost ?_
  intro start body block next start' body' block' next' _ ends candidate' ends' after
  have lt := candidate'.lt
  cases ends with
  | @closed close text closed slice =>
    cases ends' with
    | closed _ _ =>
      have stop := slice.stop_eq
      show body < body' ∧ body + text.byteSize < body'
      omega

section
variable (nonempty : marker.name ≠ []) (identifier : Identifier marker.name)
include nonempty identifier

theorem isIdentifierChar_of_cons_eq {c : Char} {rest : Text} (same : c :: t = marker.name ++ rest) :
    isIdentifierChar c := by
  cases eq : marker.name with
  | nil => exact absurd eq nonempty
  | cons d name =>
    rw [eq] at same
    obtain ⟨rfl, -⟩ := List.cons.inj same
    exact identifier c (by simp [eq])

/-- A call does not begin where the name or the gap of another stands. -/
theorem Candidate.body_le (candidate : Candidate marker source start body) {later body' : Nat}
    (candidate' : Candidate marker source later body') (lt : start < later) : body ≤ later := by
  obtain ⟨before, gap, rest, rfl, -, white, rfl, rfl⟩ := candidate
  have split : before ++ marker.name ++ gap ++ '(' :: rest = before ++ (marker.name ++ (gap ++ ['(']) ++ rest) := by
    simp
  rw [split] at candidate'
  obtain ⟨v, gap', rest', same, follows, -, rfl⟩ := candidate'.exists_split (Nat.le_of_lt lt)
  have begins_later : v ≠ [] := by
    rintro rfl
    simp at lt
  rcases List.append_eq_append_iff.mp same with ⟨m, rfl, -⟩ | ⟨m, call, eq⟩
  · simp only [Text.byteSize_append]
    omega
  · cases m with
    | nil =>
      rw [List.append_nil] at call
      simp [← call]
    | cons c m =>
      -- the later name would begin in this one, or in the gap or with the parenthesis
      have starts := isIdentifierChar_of_cons_eq nonempty identifier eq.symm
      rcases List.append_eq_append_iff.mp call with ⟨w, rfl, opens⟩ | ⟨w, name, -⟩
      · have mem : c ∈ gap ++ ['('] := by simp [opens]
        rcases List.mem_append.mp mem with mem | mem
        · have solid := not_isBlank_of_isIdentifierChar starts
          rw [Text.isBlank_of_mem white mem] at solid
          cases solid
        · rw [List.mem_singleton.mp mem] at starts
          exact absurd starts (by decide)
      · exact absurd follows.apart (not_apart_append (fun d mem => identifier d (by simp [name, mem])) begins_later)

theorem Candidate.ne_close {close : Nat} (candidate : Candidate marker source start body)
    (closes : ClosesAt source position close) : start ≠ close := by
  rintro rfl
  obtain ⟨before, inner, after, rfl, -, place, -⟩ := closes
  obtain ⟨v, gap, rest, same, -, -, size⟩ := candidate.exists_split (Nat.le_of_eq place)
  have here : v = [] := by
    rw [Text.byteSize_append, place] at size
    exact Text.eq_nil_of_byteSize_eq_zero (by omega)
  rw [here, List.nil_append] at same
  have starts := isIdentifierChar_of_cons_eq nonempty identifier same
  revert starts
  decide

theorem Marker.leftmost_blocks (source : Text) : LeftmostCalls marker source 0 (blocks marker source) :=
  (marker.finds source).leftmost nonempty identifier

/-- A closed candidate is among the leftmost calls if it is outside their argument texts, and all candidates
    before it that are outside them are closed. -/
theorem LeftmostCalls.mem_of_closed {found : List Block} (leftmost : LeftmostCalls marker source 0 found)
    {close : Nat} (candidate : Candidate marker source start body)
    (closed : closingOffset source body = .ok (some close)) (outside : Outside found start)
    (earlier : ∀ start' body', start' < start → Candidate marker source start' body' →
      Outside found start' → ∃ close', closingOffset source body' = .ok (some close')) :
    ∃ text, ⟨body, text⟩ ∈ found := by
  rcases leftmost.mem_or (orderly_calls marker source) candidate (Nat.zero_le start) with
    ⟨block, mem, next, ends⟩ | ⟨block, mem, start', body', next, candidate', ends, later, inside⟩ |
    ⟨start', body', candidate', ends, -, le, passed⟩
  · cases ends with
    | closed _ _ => exact ⟨_, mem⟩
  · -- it would begin in the name, the gap or the argument text of that call, or with its closing parenthesis
    have begun := candidate'.body_le nonempty identifier candidate later
    cases ends with
    | @closed close' text closed' slice =>
      have ne := candidate.ne_close nonempty identifier (closingOffset_eq_some_iff.mp closed')
      have stop := slice.stop_eq
      refine absurd ⟨begun, ?_⟩ (outside _ mem)
      show start < body' + text.byteSize
      omega
  · cases ends with
    | unclosed unclosed =>
      rcases Nat.eq_or_lt_of_le le with rfl | lt
      · rw [candidate.body_eq candidate'] at closed
        cases unclosed.symm.trans closed
      · obtain ⟨close', closed'⟩ := earlier start' body' lt candidate' fun block mem inside => by
          obtain ⟨_, _, next, -, ends, after⟩ := passed block mem
          cases ends with
          | @closed close'' text closed'' slice =>
            have stop := slice.stop_eq
            have before : start' < _ + text.byteSize := inside.2
            dsimp only at before
            omega
        cases unclosed.symm.trans closed'

end

/-- The search finds the leftmost calls of every text and nothing else. Their argument texts follow each other, and
    a closed call outside of them is missed only after one that is not closed. -/
theorem blocks_iff_leftmost (nonempty : marker.name ≠ []) (identifier : Identifier marker.name) (source : Text) :
    (∀ found, LeftmostCalls marker source 0 found ↔ found = blocks marker source) ∧
    (blocks marker source).Pairwise (fun first second =>
      first.offset < second.offset ∧ first.stop < second.offset) ∧
    ∀ start body close, Candidate marker source start body → closingOffset source body = .ok (some close) →
      Outside (blocks marker source) start →
      (∀ start' body', start' < start → Candidate marker source start' body' →
        Outside (blocks marker source) start' → ∃ close', closingOffset source body' = .ok (some close')) →
      ∃ text, ⟨body, text⟩ ∈ blocks marker source := by
  have leftmost := marker.leftmost_blocks nonempty identifier source
  refine ⟨fun found => ⟨fun leftmost' => leftmost'.unique (orderly_calls marker source) leftmost, ?_⟩, leftmost.pairwise, ?_⟩
  · rintro rfl
    exact leftmost
  · intro start body close candidate closed outside earlier
    exact leftmost.mem_of_closed nonempty identifier candidate closed outside earlier

/-- A call inside another is part of its argument text, and the names inside `aaa` are those of no call. -/
theorem leftmost_overlapping : (Marker.call (lit "aa")).name ≠ [] ∧ Identifier (Marker.call (lit "aa")).name ∧
    LeftmostCalls (.call (lit "aa")) (lit "aa(aa(1)) aaa(2) aa (3)") 0 [⟨3, lit "aa(1)"⟩, ⟨21, lit "3"⟩] := by
  have nonempty : (Marker.call (lit "aa")).name ≠ [] := by decide
  have identifier : Identifier (Marker.call (lit "aa")).name := by decide
  have found : [⟨3, lit "aa(1)"⟩, ⟨21, lit "3"⟩] = blocks (.call (lit "aa")) (lit "aa(aa(1)) aaa(2) aa (3)") := by
    decide +kernel
  exact ⟨nonempty, identifier, ((blocks_iff_leftmost nonempty identifier _).1 _).mpr found⟩

end PluginAudit.Code
