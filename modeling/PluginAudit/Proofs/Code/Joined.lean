import PluginAudit.Proofs.Code.LeftmostCall
import PluginAudit.Proofs.Code.LeftmostLabel

/-!
# Joined texts

Of two texts with a semicolon between them, a search finds what it finds in each, if what it comes to in the first
is read there to the end: a call that is closed, a literal that is terminated, or a word that neither follows
(`occurrences_joined`). So the search has to go through the whole of the first text (`Exhausted`, `Unbroken`).
-/
namespace PluginAudit.Code

variable {word t : Text}

theorem semicolon_not_mem_of_identifier (identifier : Identifier word) : ';' ∉ word := by
  intro mem
  have mark := identifier ';' mem
  revert mark
  decide

theorem semicolon_not_mem_of_blank {gap : Text} (white : gap.blank) : ';' ∉ gap := by
  intro mem
  have mark := Text.isBlank_of_mem white mem
  revert mark
  decide

theorem not_isPrefix_joined (identifier : Identifier word) (elsewhere : ¬ word <+: t) (b : Text) :
    ¬ word <+: t ++ ';' :: b := by
  rintro ⟨after, eq⟩
  obtain ⟨m, rfl, -⟩ := Text.exists_append_of_not_mem eq.symm (semicolon_not_mem_of_identifier identifier)
  exact elsewhere ⟨m, rfl⟩

section
variable {α : Type} {read : Text → Text → Reading α}

/-- A reader makes the same of a word whether a text begins before it or a semicolon stands there. -/
def Fresh (read : Text → Text → Reading α) : Prop :=
  ∀ before earlier after, read (before ++ ';' :: earlier) after = read before after

/-- After a semicolon, a search finds what it finds in a text of its own. -/
theorem occurrencesFrom_fresh (nonempty : word ≠ []) (fresh : Fresh read) (size : Nat) (earlier : Text)
    (offset : Nat) (u t : Text) : occurrencesFrom word read (size + offset) (u.reverse ++ ';' :: earlier) t =
      (occurrencesFrom word read offset u.reverse t).map (Prod.map (size + ·) id) := by
  induction u, t using word_induction nonempty generalizing offset with
  | nil u => simp
  | char u c t elsewhere ih =>
    have passes : ∀ before, Passes word read before [c] t := fun before => .char before elsewhere
    have split : c :: t = [c] ++ t := rfl
    rw [split, passes _ (size + offset), passes _ offset]
    simpa [Nat.add_assoc] using ih (offset + Text.byteSize [c])
  | occurrence u after ih =>
    have same := fresh u.reverse earlier after
    cases reads : read u.reverse after with
    | rejected =>
      rw [reads] at same
      rw [Passes.of_rejected same (size + offset), Passes.of_rejected reads offset]
      simpa [Nat.add_assoc] using ih [] after rfl (offset + word.byteSize)
    | unfinished =>
      rw [reads] at same
      rw [occurrencesFrom_unfinished nonempty same, occurrencesFrom_unfinished nonempty reads]
      rfl
    | found item length =>
      rw [reads] at same
      have later := ih (after.take length) (after.drop length) (List.take_append_drop ..).symm
        (offset + (word ++ after.take length).byteSize)
      rw [occurrencesFrom_read nonempty same, occurrencesFrom_read nonempty reads, List.map_cons]
      simpa [Nat.add_assoc] using later

/-- A reader makes the same of a word when a semicolon and another text follow: it rejects the word, or it finds
    something, and a property holds of the place where the search goes on. -/
def Rereads (read : Text → Text → Reading α) (word : Text) (holds : Text → Text → Prop) (b u after : Text) : Prop :=
  read u.reverse after = .rejected ∧ read u.reverse (after ++ ';' :: b) = .rejected ∧ holds (u ++ word) after ∨
    ∃ item taken rest, after = taken ++ rest ∧ read u.reverse after = .found item taken.length ∧
      read u.reverse (after ++ ';' :: b) = .found item taken.length ∧ holds (u ++ word ++ taken) rest

/-- A search finds the same in a text when a semicolon and another text follow it, and goes on after it. What holds of
    the places that it comes to has to say that the words there are read in the same way. -/
theorem occurrencesFrom_joined (holds : Text → Text → Prop) (nonempty : word ≠ []) (identifier : Identifier word)
    (b : Text) (char : ∀ {u c t}, ¬ word <+: c :: t → holds u (c :: t) → holds (u ++ [c]) t)
    (occurrence : ∀ {u after}, holds u (word ++ after) → Rereads read word holds b u after)
    {u t : Text} (start : holds u t) : occurrencesFrom word read u.byteSize u.reverse (t ++ ';' :: b) =
      occurrencesFrom word read u.byteSize u.reverse t ++
        occurrencesFrom word read (u ++ t).byteSize (u ++ t).reverse (';' :: b) := by
  have onward : ∀ u v rest : Text, occurrencesFrom word read (u.byteSize + v.byteSize) (v.reverse ++ u.reverse) rest =
      occurrencesFrom word read (u ++ v).byteSize (u ++ v).reverse rest := by simp
  induction u, t using word_induction nonempty with
  | nil u => simp
  | char u c t elsewhere ih =>
    have alone : Passes word read u.reverse [c] t := .char _ elsewhere
    have joined : Passes word read u.reverse [c] (t ++ ';' :: b) := .char _ (not_isPrefix_joined identifier elsewhere b)
    have later := ih (char elsewhere start)
    rw [← List.singleton_append, List.append_assoc, joined, alone, onward, onward, later, List.append_assoc]
  | occurrence u after ih =>
    rcases occurrence start with ⟨rejected, rejected', next⟩ | ⟨item, taken, rest, rfl, found, found', next⟩
    · have later := ih [] after rfl
      rw [List.append_nil] at later
      rw [List.append_assoc, Passes.of_rejected rejected', Passes.of_rejected rejected, onward, onward, later next,
        List.append_assoc]
    · rw [List.append_assoc] at found'
      rw [List.append_assoc, List.append_assoc, occurrencesFrom_found nonempty found',
        occurrencesFrom_found nonempty found, onward, onward, ← List.append_assoc u, ih taken rest rfl next]
      simp

theorem occurrencesFrom_semicolon (nonempty : word ≠ []) (identifier : Identifier word) (fresh : Fresh read)
    (a b : Text) : occurrencesFrom word read a.byteSize a.reverse (';' :: b) =
      (occurrences word read b).map (Prod.map (a.byteSize + 1 + ·) id) := by
  have elsewhere : ¬ word <+: [] ++ ';' :: b := not_isPrefix_joined identifier (by simpa using nonempty) b
  have passes : Passes word read a.reverse [';'] b := .char _ elsewhere
  have mark : ';'.utf8Size = 1 := rfl
  have found := occurrencesFrom_fresh nonempty fresh (a.byteSize + 1) a.reverse 0 [] b
  rw [← List.singleton_append, passes a.byteSize, occurrences_eq]
  simpa [mark] using found

/-- In joined texts a search finds what it finds in each, when it goes through the first in the same way. -/
theorem occurrences_joined (holds : Text → Text → Prop) (nonempty : word ≠ []) (identifier : Identifier word)
    (fresh : Fresh read) {a b : Text} (char : ∀ {u c t}, ¬ word <+: c :: t → holds u (c :: t) → holds (u ++ [c]) t)
    (occurrence : ∀ {u after}, holds u (word ++ after) → Rereads read word holds b u after)
    (start : holds [] a) : occurrences word read (a ++ ';' :: b) =
      occurrences word read a ++ (occurrences word read b).map (Prod.map (a.byteSize + 1 + ·) id) := by
  have joined := occurrencesFrom_joined holds nonempty identifier b char occurrence start
  rw [occurrences_eq, occurrences_eq, ← occurrencesFrom_semicolon nonempty identifier fresh]
  exact joined

end

theorem endsInIdentifier_fresh (before earlier : Text) :
    endsInIdentifier (before ++ ';' :: earlier) = endsInIdentifier before := by
  cases before with
  | nil =>
    have mark : isIdentifierChar ';' = false := by decide
    simp [endsInIdentifier, mark]
  | cons c before => rfl

theorem endsInNew_fresh (before earlier : Text) : endsInNew (before ++ ';' :: earlier) = endsInNew before := by
  have solid : isBlank ';' = false := by decide
  cases before with
  | nil => simp [endsInNew, solid]
  | cons c before =>
    rw [List.cons_append, endsInNew, endsInNew, List.dropWhile_append, List.dropWhile_cons_of_neg (by simp [solid])]
    -- `new` is not completed by the semicolon
    rcases before.dropWhile isBlank with _ | ⟨x, _ | ⟨y, _ | ⟨z, rest⟩⟩⟩
    · simp
    · simp
    · simp
    · simp only [List.isEmpty_cons, Bool.false_eq_true, if_false, List.cons_append]
      by_cases new : x = 'w' ∧ y = 'e' ∧ z = 'n'
      · obtain ⟨rfl, rfl, rfl⟩ := new
        simp [endsInIdentifier_fresh]
      · split <;> split <;> simp_all

theorem fresh_readLabel : Fresh readLabel := by
  intro before earlier after
  rw [readLabel, readLabel, endsInIdentifier_fresh]

theorem Marker.fresh_read (marker : Marker) : Fresh marker.read := by
  intro before earlier after
  have fits : marker.fits (before ++ ';' :: earlier) = marker.fits before := by
    cases marker with
    | call name => rw [Marker.fits, Marker.fits, endsInIdentifier_fresh]
    | creation name => exact endsInNew_fresh before earlier
  rw [Marker.read, Marker.read, fits]

/-! ## Calls -/

/-- A block of a text that has so many bytes more in front. -/
def Block.shift (n : Nat) (block : Block) : Block := { block with offset := n + block.offset }

/-- The search for calls ends for want of another: no call begins after the end of the last that is found. -/
def Exhausted (marker : Marker) (t : Text) : Prop :=
  ∀ start body, Candidate marker t start body → ∃ block ∈ blocks marker t, start < block.stop

variable {marker : Marker} {keyword a u : Text}

/-- No call that begins at or after a place in a text begins after the end of the last that is found from there on. -/
def ExhaustedFrom (marker : Marker) (u t : Text) : Prop :=
  ∀ start body, Candidate marker (u ++ t) start body → u.byteSize ≤ start →
    ∃ block ∈ blocksFrom marker u t, start < block.stop

theorem Exhausted.from_start (exhausted : Exhausted marker t) : ExhaustedFrom marker [] t := by
  intro start body candidate _
  rw [← blocks_eq_blocksFrom]
  exact exhausted start body candidate

theorem ExhaustedFrom.after {v : Text} {found : List Block} (exhausted : ExhaustedFrom marker u (v ++ t))
    (inside : ∀ block ∈ found, block.stop ≤ (u ++ v).byteSize)
    (split : blocksFrom marker u (v ++ t) = found ++ blocksFrom marker (u ++ v) t) :
    ExhaustedFrom marker (u ++ v) t := by
  intro start body candidate reached
  rw [List.append_assoc] at candidate
  have before : u.byteSize ≤ start := by
    rw [Text.byteSize_append] at reached
    omega
  obtain ⟨block, mem, lt⟩ := exhausted start body candidate before
  rw [split] at mem
  rcases List.mem_append.mp mem with mem | mem
  · have := inside block mem
    omega
  · exact ⟨block, mem, lt⟩

theorem ExhaustedFrom.passed {v : Text} (exhausted : ExhaustedFrom marker u (v ++ t))
    (passes : blocksFrom marker u (v ++ t) = blocksFrom marker (u ++ v) t) : ExhaustedFrom marker (u ++ v) t :=
  exhausted.after (List.forall_mem_nil _) passes

theorem Marker.read_joined {after : Text} (rejected : marker.read u.reverse after = .rejected) (b : Text) :
    marker.read u.reverse (after ++ ';' :: b) = .rejected := by
  rcases marker.read_cases u (after ++ ';' :: b) with ⟨rejected', -⟩ | ⟨gap, rest, eq, follows, white, -⟩
  · exact rejected'
  · -- the parenthesis would stand before the semicolon
    have opens : after ++ ';' :: b = (gap ++ ['(']) ++ rest := by simpa using eq
    obtain ⟨m, rfl, -⟩ := Text.exists_append_of_not_mem opens (by simp [semicolon_not_mem_of_blank white])
    rcases marker.read_cases u (gap ++ ['('] ++ m) with ⟨-, noCall⟩ | ⟨_, _, _, _, _, ⟨read, -⟩ | ⟨_, _, read, -⟩⟩
    · exact absurd ⟨gap, m, by simp, follows, white⟩ noCall
    · cases rejected.symm.trans read
    · cases rejected.symm.trans read

theorem blocksFrom_call {gap inner : Text} (nonempty : marker.name ≠ []) (follows : marker.Follows u)
    (white : gap.blank) (inside : Balanced inner) (rest : Text) :
    blocksFrom marker u (marker.name ++ (gap ++ '(' :: (inner ++ [')']) ++ rest)) =
      ⟨(u ++ marker.name ++ gap ++ ['(']).byteSize, inner⟩ ::
        blocksFrom marker (u ++ marker.name ++ (gap ++ '(' :: (inner ++ [')']))) rest := by
  have found := blocksFrom_found nonempty (marker.read_found ((marker.fits_iff u).mpr follows) white inside rest)
  simpa using found

theorem ExhaustedFrom.reads {after : Text} (nonempty : marker.name ≠ [])
    (exhausted : ExhaustedFrom marker u (marker.name ++ after)) (b : Text) :
    Rereads marker.read marker.name (ExhaustedFrom marker) b u after := by
  rcases marker.read_cases u after with ⟨rejected, -⟩ | ⟨gap, rest, rfl, follows, white, read⟩
  · exact .inl ⟨rejected, Marker.read_joined rejected b, exhausted.passed (blocksFrom_passes (.of_rejected rejected))⟩
  · rcases read with ⟨unfinished, -⟩ | ⟨inner, last, -, balanced⟩
    · -- this call is not closed, so that the search would not go through the text
      have none : blocksFrom marker u (marker.name ++ (gap ++ '(' :: rest)) = [] :=
        itemsFrom_unfinished nonempty unfinished
      have candidate : Candidate marker (u ++ (marker.name ++ (gap ++ '(' :: rest))) u.byteSize _ :=
        ⟨u, gap, rest, by simp, follows, white, rfl, rfl⟩
      obtain ⟨block, mem, -⟩ := exhausted _ _ candidate (Nat.le_refl _)
      rw [none] at mem
      cases mem
    · obtain ⟨rfl, inside⟩ := balanced?_eq_some_iff.mp balanced
      have length : (gap ++ '(' :: (inner ++ [')'])).length = gap.length + inner.length + 2 := by
        simp only [List.length_append, List.length_cons, List.length_nil]
        omega
      have found : ∀ rest, marker.read u.reverse (gap ++ '(' :: (inner ++ [')']) ++ rest) =
          .found (gap.byteSize + 1, inner) (gap ++ '(' :: (inner ++ [')'])).length := by
        intro rest
        rw [length, ← Marker.read_found ((marker.fits_iff u).mpr follows) white inside rest]
        simp
      have split : gap ++ '(' :: (inner ++ ')' :: last) = gap ++ '(' :: (inner ++ [')']) ++ last := by simp
      have call := blocksFrom_call nonempty follows white inside last
      have stop : Block.stop ⟨(u ++ marker.name ++ gap ++ ['(']).byteSize, inner⟩ ≤
          (u ++ (marker.name ++ (gap ++ '(' :: (inner ++ [')'])))).byteSize := by
        simp only [Block.stop, Text.byteSize_append, Text.byteSize_cons, Text.byteSize_nil]
        omega
      rw [split] at exhausted ⊢
      refine .inr ⟨_, _, last, rfl, found last, ?_, ?_⟩
      · rw [List.append_assoc _ last]
        exact found (last ++ ';' :: b)
      · generalize gap ++ '(' :: (inner ++ [')']) = taken at *
        rw [← List.append_assoc marker.name] at exhausted call
        rw [List.append_assoc u marker.name taken] at call ⊢
        exact exhausted.after (List.forall_mem_singleton.mpr stop) call

/-- When the search goes through the whole of the first text, it finds the calls of both. -/
theorem Exhausted.blocks_joined (exhausted : Exhausted marker a) (nonempty : marker.name ≠ [])
    (identifier : Identifier marker.name) (b : Text) :
    blocks marker (a ++ ';' :: b) = blocks marker a ++ (blocks marker b).map (Block.shift (a.byteSize + 1)) := by
  have joined := occurrences_joined (ExhaustedFrom marker) nonempty identifier marker.fresh_read
    (fun elsewhere exhausted => exhausted.passed (blocksFrom_passes (.char _ elsewhere)))
    (fun exhausted => exhausted.reads nonempty b) exhausted.from_start
  rw [blocks, joined, List.map_append, List.map_map, blocks, blocks, List.map_map]
  refine congrArg _ (List.map_congr_left fun item _ => ?_)
  simp [Block.shift, Nat.add_assoc]

/-- In a text in which every parenthesis is closed, every call is. -/
theorem Exhausted.of_closed (nonempty : marker.name ≠ []) (identifier : Identifier marker.name)
    (closed : ∀ s ∈ t.tails, s.head? = some '(' → (balanced? (.nested 1) s.tail).isSome) : Exhausted marker t := by
  have leftmost := marker.leftmost_blocks nonempty identifier t
  have closes : ∀ start body, Candidate marker t start body → ∃ close, closingOffset t body = .ok (some close) := by
    rintro start body ⟨before, gap, rest, rfl, -, -, -, rfl⟩
    have opens := closed ('(' :: rest) ((List.mem_tails ..).mpr (List.suffix_append ..)) rfl
    obtain ⟨⟨inner, last⟩, balanced⟩ := Option.isSome_iff_exists.mp opens
    rw [List.tail_cons] at balanced
    rw [List.append_cons, closingOffset_append, balanced]
    exact ⟨_, rfl⟩
  intro start body candidate
  by_contra! missed
  obtain ⟨close, closed⟩ := closes start body candidate
  have outside : Outside (blocks marker t) start := fun block mem => by
    have := missed block mem
    omega
  obtain ⟨text, mem⟩ := leftmost.mem_of_closed nonempty identifier candidate closed outside
    fun start' body' _ candidate' _ => closes start' body' candidate'
  have stop : body + text.byteSize ≤ start := missed _ mem
  have := candidate.lt
  omega

/-! ## Labels -/

/-- Every literal that a keyword introduces is terminated: where the keyword stands after a text that does not end in an
    identifier, and white space and a quote follow it, a complete literal begins with the quote. -/
def Unbroken (keyword t : Text) : Prop :=
  ∀ before gap rest, t = before ++ keyword ++ gap ++ '"' :: rest → Apart before → gap.blank → gap ≠ [] →
    ∃ items after, '"' :: rest = quoted items ++ after ∧ ∀ item ∈ items, item.Proper

/-- In a text in which every literal after white space is terminated, every literal that a keyword introduces is. -/
theorem Unbroken.of_terminated (terminated : ∀ s ∈ t.tails, s.head?.any isBlank → s.tail.head? = some '"' →
    (readItems s.tail.tail).2.isSome) : Unbroken keyword t := by
  rintro before gap rest rfl - white spaced
  obtain ⟨init, last, rfl⟩ := (List.eq_nil_or_concat gap).resolve_left spaced
  have suffix : last :: '"' :: rest <:+ before ++ keyword ++ init.concat last ++ '"' :: rest := by
    rw [List.concat_eq_append, ← List.append_assoc, List.append_assoc _ [last]]
    exact List.suffix_append ..
  have ends := terminated _ ((List.mem_tails ..).mpr suffix) (Text.isBlank_of_mem white (by simp)) rfl
  obtain ⟨after, ended⟩ := Option.isSome_iff_exists.mp ends
  have read : readItems rest = ((readItems rest).1, some after) := Prod.ext rfl ended
  exact ⟨_, after, eq_quoted_of_readItems read, proper_of_readItems read⟩

theorem readLabel_joined {after : Text} (unbroken : Unbroken keyword (u ++ (keyword ++ after)))
    (rejected : readLabel u.reverse after = .rejected) (b : Text) :
    readLabel u.reverse (after ++ ';' :: b) = .rejected := by
  rcases readLabel_cases u (after ++ ';' :: b) with ⟨rejected', -⟩ | ⟨gap, items, rest, eq, apart, white, spaced, -⟩
  · exact rejected'
  · -- the quote would stand before the semicolon, and so would the whole literal
    have quote : after ++ ';' :: b = (gap ++ ['"']) ++ (items.flatMap Item.spelling ++ '"' :: rest) := by
      simpa [quoted] using eq
    obtain ⟨m, rfl, -⟩ := Text.exists_append_of_not_mem quote (by simp [semicolon_not_mem_of_blank white])
    obtain ⟨items', last, complete, proper⟩ := unbroken u gap m (by simp) apart white spaced
    have found := readLabel_quoted ((apart_iff u).mp apart) white spaced proper last
    have written : gap ++ ['"'] ++ m = gap ++ quoted items' ++ last := by simp [← complete]
    rw [written, found] at rejected
    cases rejected

theorem Unbroken.reads {after : Text} (unbroken : Unbroken keyword (u ++ (keyword ++ after))) (b : Text) :
    Rereads readLabel keyword (fun u t => Unbroken keyword (u ++ t)) b u after := by
  rcases readLabel_cases u after with ⟨rejected, -⟩ | ⟨gap, items, rest, rfl, apart, white, spaced, proper, found⟩
  · exact .inl ⟨rejected, readLabel_joined unbroken rejected b, by simpa using unbroken⟩
  · have found' := readLabel_quoted ((apart_iff u).mp apart) white spaced proper (rest ++ ';' :: b)
    rw [← List.append_assoc (gap ++ quoted items)] at found'
    exact .inr ⟨_, gap ++ quoted items, rest, rfl, found, found', by simpa using unbroken⟩

/-- When every literal that the keyword introduces in the first text is terminated, the search finds the literals of both. -/
theorem Unbroken.labels_joined (unbroken : Unbroken keyword a) (nonempty : keyword ≠ [])
    (identifier : Identifier keyword) (b : Text) :
    labels keyword (a ++ ';' :: b) = labels keyword a ++ (labels keyword b).map (Literal.shift (a.byteSize + 1)) := by
  have joined := occurrences_joined (fun u t => Unbroken keyword (u ++ t)) nonempty identifier fresh_readLabel
    (fun _ unbroken => by rwa [List.append_assoc]) (fun unbroken => unbroken.reads b) unbroken
  rw [labels, joined, List.map_append, List.map_map, labels, labels, List.map_map]
  refine congrArg _ (List.map_congr_left fun item _ => ?_)
  simp [Literal.shift, Nat.add_assoc]

end PluginAudit.Code
