import PluginAudit.Proofs.Code.Quoted
import PluginAudit.Code.Label

/-!
# What a search passes over

A search passes over a part of a text when it finds nothing there and goes on with what follows (`Passes`): a part
in which the word does not occur (`Passes.of_free`), or, for a reader that wants whole words, an identifier other
than the word (`Passes.identifier`).
-/
namespace PluginAudit.Code

/-- Whether a text consists of identifier characters. -/
def Identifier (t : Text) : Prop := ∀ c ∈ t, isIdentifierChar c

instance (t : Text) : Decidable (Identifier t) := decidable_of_iff (t.all isIdentifierChar) List.all_eq_true

def NoIdentifier (t : Text) : Prop := ∀ c ∈ t, isIdentifierChar c = false

instance (t : Text) : Decidable (NoIdentifier t) :=
  decidable_of_iff (t.all (!isIdentifierChar ·)) (by simp [NoIdentifier])

def startsInIdentifier (t : Text) : Bool := t.head?.any isIdentifierChar

theorem not_isBlank_of_isIdentifierChar {c : Char} (identifier : isIdentifierChar c) : isBlank c = false := by
  by_contra white
  rw [Bool.not_eq_false] at white
  have notWord := Text.not_isAlphanumeric_of_isBlank white
  rw [isIdentifierChar, notWord] at identifier
  simp only [Bool.false_or, Bool.or_eq_true, beq_iff_eq] at identifier
  rcases identifier with rfl | rfl <;> revert white <;> decide

theorem noIdentifier_of_blank {gap : Text} (white : gap.blank) : NoIdentifier gap := by
  intro c mem
  by_contra identifier
  rw [Bool.not_eq_false] at identifier
  have solid := not_isBlank_of_isIdentifierChar identifier
  rw [Text.isBlank_of_mem white mem] at solid
  cases solid

/-- A text is an identifier up to where another begins that does not continue it. -/
theorem prefix_of_identifier {word u after rest : Text} (identifier : Identifier word)
    (ends : startsInIdentifier rest = false) (same : u ++ rest = word ++ after) :
    ∃ v, u = word ++ v ∧ after = v ++ rest := by
  rcases List.append_eq_append_iff.mp same with ⟨v, wordEq, restEq⟩ | ⟨v, uEq, afterEq⟩
  · cases v with
    | nil => exact ⟨[], by simpa using wordEq.symm, by simpa using restEq.symm⟩
    | cons c v =>
      have := identifier c (by simp [wordEq])
      simp [startsInIdentifier, restEq, this] at ends
  · exact ⟨v, uEq, afterEq⟩

/-- A reader of whole words finds nothing where the word continues an identifier or is continued. -/
def WholeWord {α : Type} (read : Text → Text → Reading α) : Prop :=
  ∀ before after, endsInIdentifier before ∨ startsInIdentifier after → read before after = .rejected

theorem wholeWord_readLabel : WholeWord readLabel := by
  rintro before after (continues | continued)
  · rw [readLabel, if_pos continues]
  · cases after with
    | nil => simp [startsInIdentifier] at continued
    | cons c after =>
      have solid := not_isBlank_of_isIdentifierChar (by simpa [startsInIdentifier] using continued : isIdentifierChar c)
      simp [readLabel, solid]

theorem readLabel_quoted {before gap : Text} {items : List Item} (apart : endsInIdentifier before = false)
    (white : gap.blank) (spaced : gap ≠ []) (proper : ∀ item ∈ items, item.Proper) (rest : Text) :
    readLabel before (gap ++ quoted items ++ rest) = .found ⟨items, gap.byteSize, true⟩ (gap ++ quoted items).length := by
  have white' : ∀ c ∈ gap, isBlank c := fun c mem => Text.isBlank_of_mem white mem
  have leading := leading?_quoted proper rest
  have taken : (gap ++ quoted items ++ rest).takeWhile isBlank = gap := by
    rw [List.append_assoc, List.takeWhile_append_of_pos white', takeWhile_quoted, List.append_nil]
  have dropped : (gap ++ quoted items ++ rest).dropWhile isBlank = quoted items ++ rest := by
    rw [List.append_assoc, List.dropWhile_append_of_pos white']
    simp [quoted]
  rw [readLabel, if_neg (by simp [apart]), taken, dropped, leading]
  cases gap with
  | nil => exact absurd rfl spaced
  | cons c gap =>
    simp only [List.cons_append, List.length_cons, List.length_append, Literal.shift, Literal.spelling, quoted,
      if_true, Nat.add_zero]
    rw [Nat.add_right_comm]

theorem not_endsInNew_of_endsInIdentifier {before : Text} (identifier : endsInIdentifier before) :
    endsInNew before = false := by
  cases before with
  | nil => rfl
  | cons c before =>
    have solid := not_isBlank_of_isIdentifierChar (by simpa [endsInIdentifier] using identifier : isIdentifierChar c)
    rw [endsInNew, solid, Bool.false_and]

/-- A name that no opening parenthesis follows is not that of a call. -/
theorem Marker.read_rejected (marker : Marker) (before : Text) {after : Text}
    (closed : (after.dropWhile isBlank).head? ≠ some '(') : marker.read before after = .rejected := by
  rw [Marker.read]
  split
  · split
    next body eq => simp [eq] at closed
    next => rfl
  · rfl

theorem wholeWord_read (marker : Marker) : WholeWord marker.read := by
  rintro before after (continues | continued)
  · have unfit : marker.fits before = false := by
      cases marker with
      | call name => simp [Marker.fits, continues]
      | creation name => exact not_endsInNew_of_endsInIdentifier continues
    rw [Marker.read, unfit]
    rfl
  · refine marker.read_rejected before ?_
    cases after with
    | nil => simp
    | cons c after =>
      have identifier : isIdentifierChar c := by simpa [startsInIdentifier] using continued
      rw [List.dropWhile_cons_of_neg (by simp [not_isBlank_of_isIdentifierChar identifier])]
      rintro ⟨⟩
      revert identifier
      decide

/-- Induction along a text by the occurrences of a word: from each place over a character where the word does not
    begin, or over the word to any place after it. -/
@[elab_as_elim]
theorem word_induction {word : Text} {motive : Text → Text → Prop} (nonempty : word ≠ [])
    (nil : ∀ u, motive u [])
    (char : ∀ u c t, ¬ word <+: c :: t → motive (u ++ [c]) t → motive u (c :: t))
    (occurrence : ∀ u after, (∀ v rest, after = v ++ rest → motive (u ++ word ++ v) rest) → motive u (word ++ after))
    (u t : Text) : motive u t := by
  induction size : t.length using Nat.strong_induction_on generalizing u t with
  | _ length ih =>
  subst size
  by_cases starts : word <+: t
  · obtain ⟨after, rfl⟩ := starts
    refine occurrence u after fun v rest split => ih rest.length ?_ _ rest rfl
    have := List.length_pos_iff.mpr nonempty
    simp only [split, List.length_append]
    omega
  · cases t with
    | nil => exact nil u
    | cons c t => exact char u c t starts (ih t.length (by simp) _ t rfl)

section
variable {α : Type} {read : Text → Text → Reading α} {word : Text}

/-- The search for a word in a text at a byte offset, given what stands before it. -/
def occurrencesFrom (word : Text) (read : Text → Text → Reading α) (offset : Nat) (before t : Text) :
    List (Nat × α) :=
  match word with
  | [] => []
  | first :: others => search first others read offset before t

theorem occurrences_eq (word : Text) (read : Text → Text → Reading α) (t : Text) :
    occurrences word read t = occurrencesFrom word read 0 [] t := by
  cases word <;> rfl

@[simp] theorem occurrencesFrom_nil (offset : Nat) (before : Text) :
    occurrencesFrom word read offset before [] = [] := by
  cases word <;> simp [occurrencesFrom, search]

/-- A search finds nothing in a part of a text and goes on after it. -/
def Passes (word : Text) (read : Text → Text → Reading α) (before u rest : Text) : Prop :=
  ∀ offset, occurrencesFrom word read offset before (u ++ rest) =
    occurrencesFrom word read (offset + u.byteSize) (u.reverse ++ before) rest

theorem Passes.nil (before rest : Text) : Passes word read before [] rest := fun _ => rfl

theorem Passes.append {before u v rest : Text} (first : Passes word read before u (v ++ rest))
    (second : Passes word read (u.reverse ++ before) v rest) : Passes word read before (u ++ v) rest := by
  intro offset
  rw [List.append_assoc, first offset, second]
  simp [Nat.add_assoc]

theorem Passes.char (before : Text) {c : Char} {rest : Text} (elsewhere : ¬ word <+: c :: rest) :
    Passes word read before [c] rest := by
  intro offset
  cases word with
  | nil => rfl
  | cons first others =>
    simp only [occurrencesFrom, List.singleton_append, List.reverse_singleton, Text.byteSize_cons, Text.byteSize_nil]
    rw [search]
    split
    next same =>
      split
      next => rfl
      next after found =>
        have := Text.after?_eq_some_iff.mp found
        exact absurd ⟨after, by simp [same, this]⟩ elsewhere
    next => rfl

theorem Passes.of_rejected {before rest : Text} (rejected : read before rest = .rejected) :
    Passes word read before word rest := by
  intro offset
  cases word with
  | nil => rfl
  | cons first others =>
    simp only [occurrencesFrom, List.cons_append]
    rw [search, if_pos rfl]
    split
    next found => simp [Text.after?_eq_some_iff.mpr rfl] at found
    next after found =>
      obtain rfl := List.append_cancel_left (Text.after?_eq_some_iff.mp found)
      rw [rejected]
      simp

/-- What the reader finds at an occurrence is listed, and the search goes on after what it takes. -/
theorem occurrencesFrom_read {before after : Text} {item : α} {length : Nat} (nonempty : word ≠ [])
    (found : read before after = .found item length) (offset : Nat) :
    occurrencesFrom word read offset before (word ++ after) =
      (offset + word.byteSize, item) :: occurrencesFrom word read (offset + (word ++ after.take length).byteSize)
        ((word ++ after.take length).reverse ++ before) (after.drop length) := by
  cases word with
  | nil => exact absurd rfl nonempty
  | cons first others =>
    simp only [occurrencesFrom, List.cons_append]
    rw [search, if_pos rfl]
    split
    next eq => simp [Text.after?_eq_some_iff.mpr rfl] at eq
    next after' eq =>
      obtain rfl := List.append_cancel_left (Text.after?_eq_some_iff.mp eq)
      rw [found]
      simp [Nat.add_assoc]

theorem occurrencesFrom_found {before taken rest : Text} {item : α} (nonempty : word ≠ [])
    (found : read before (taken ++ rest) = .found item taken.length) (offset : Nat) :
    occurrencesFrom word read offset before (word ++ (taken ++ rest)) =
      (offset + word.byteSize, item) ::
        occurrencesFrom word read (offset + (word ++ taken).byteSize) ((word ++ taken).reverse ++ before) rest := by
  rw [occurrencesFrom_read nonempty found, List.take_left, List.drop_left]

theorem occurrencesFrom_unfinished {before rest : Text} (nonempty : word ≠ [])
    (unfinished : read before rest = .unfinished) (offset : Nat) :
    occurrencesFrom word read offset before (word ++ rest) = [] := by
  cases word with
  | nil => exact absurd rfl nonempty
  | cons first others =>
    simp only [occurrencesFrom, List.cons_append]
    rw [search, if_pos rfl]
    split
    next eq => simp [Text.after?_eq_some_iff.mpr rfl] at eq
    next after eq =>
      obtain rfl := List.append_cancel_left (Text.after?_eq_some_iff.mp eq)
      rw [unfinished]

theorem exists_split_of_mem_occurrencesFrom {u t : Text} {found : Nat × α} (nonempty : word ≠ [])
    (mem : found ∈ occurrencesFrom word read u.byteSize u.reverse t) :
    ∃ before after length, u ++ t = before ++ word ++ after ∧ found.1 = (before ++ word).byteSize ∧
      read before.reverse after = .found found.2 length := by
  induction u, t using word_induction nonempty with
  | nil u =>
    rw [occurrencesFrom_nil] at mem
    cases mem
  | char u c t elsewhere ih =>
    have passes : Passes word read u.reverse [c] t := .char _ elsewhere
    rw [← List.singleton_append, passes, ← List.reverse_append, ← Text.byteSize_append] at mem
    rw [List.append_cons]
    exact ih mem
  | occurrence u after ih =>
    cases reading : read u.reverse after with
    | rejected =>
      have passes : Passes word read u.reverse word after := .of_rejected reading
      have later := ih [] after rfl
      rw [passes, ← List.reverse_append, ← Text.byteSize_append] at mem
      rw [List.append_nil] at later
      rw [← List.append_assoc]
      exact later mem
    | unfinished =>
      rw [occurrencesFrom_unfinished nonempty reading] at mem
      cases mem
    | found item length =>
      rw [occurrencesFrom_read nonempty reading, ← List.reverse_append] at mem
      rcases List.mem_cons.mp mem with rfl | later
      · exact ⟨u, after, length, (List.append_assoc ..).symm, (Text.byteSize_append u word).symm, reading⟩
      · have further := ih (after.take length) (after.drop length) (List.take_append_drop ..).symm
        have whole : u ++ (word ++ after) = u ++ (word ++ after.take length) ++ after.drop length := by
          rw [List.append_assoc u, List.append_assoc word, List.take_append_drop]
        rw [List.append_assoc u word, Text.byteSize_append] at further
        rw [whole]
        exact further later

/-- What a search finds was read at an occurrence of the word, and comes with the byte offset after it. -/
theorem exists_split_of_mem_occurrences {t : Text} {found : Nat × α} (mem : found ∈ occurrences word read t) :
    ∃ before after length, t = before ++ word ++ after ∧ found.1 = (before ++ word).byteSize ∧
      read before.reverse after = .found found.2 length := by
  cases word with
  | nil => cases mem
  | cons first others =>
    rw [occurrences_eq] at mem
    exact exists_split_of_mem_occurrencesFrom (u := []) (List.cons_ne_nil _ _) mem

/-- A text in which no occurrence of the word begins is passed over. -/
theorem Passes.of_no_occurrence {u rest : Text} (before : Text)
    (elsewhere : ∀ v w, u = v ++ w → w ≠ [] → ¬ word <+: w ++ rest) : Passes word read before u rest := by
  induction u generalizing before with
  | nil => exact .nil before rest
  | cons c u ih =>
    refine .append (u := [c]) (.char before (elsewhere [] (c :: u) rfl (by simp))) ?_
    refine ih _ fun v w eq nonempty => elsewhere (c :: v) w (by rw [eq]; rfl) nonempty

/-- A text that does not have the word in it, and does not run into what follows it, is passed over. -/
theorem Passes.of_free {u rest : Text} (before : Text) (identifier : Identifier word)
    (free : ¬ word <:+: u) (apart : endsInIdentifier u.reverse = false ∨ startsInIdentifier rest = false) :
    Passes word read before u rest := by
  refine .of_no_occurrence before fun v w eq nonempty ⟨after, found⟩ => ?_
  rcases List.append_eq_append_iff.mp found with ⟨tail, wEq, -⟩ | ⟨part, wordEq, restEq⟩
  · exact free ⟨v, tail, by rw [eq, wEq, List.append_assoc]⟩
  · -- the occurrence would begin in the text and reach its end
    cases part with
    | nil => exact free ⟨v, [], by rw [eq, wordEq]; simp⟩
    | cons c part =>
      rcases apart with apart | apart
      · obtain ⟨init, last, rfl⟩ := (List.eq_nil_or_concat w).resolve_left nonempty
        have := identifier last (by simp [wordEq])
        simp [eq, endsInIdentifier, this] at apart
      · have := identifier c (by simp [wordEq])
        simp [restEq, startsInIdentifier, this] at apart

theorem Passes.of_no_identifier {u rest : Text} (before : Text) (identifier : Identifier word) (nonempty : word ≠ [])
    (free : NoIdentifier u) : Passes word read before u rest := by
  refine .of_no_occurrence before fun v w eq remains ⟨after, found⟩ => ?_
  cases w with
  | nil => exact remains rfl
  | cons c w =>
    cases word with
    | nil => exact nonempty rfl
    | cons first others =>
      obtain ⟨rfl, -⟩ := List.cons.inj found
      have := identifier first (by simp)
      simp [free first (by simp [eq])] at this

/-- A reader of whole words passes over an identifier, unless it is the word. -/
theorem Passes.identifier {u rest : Text} (before : Text) (whole : WholeWord read) (identifier : Identifier word)
    (nonempty : word ≠ []) (run : Identifier u) (ends : startsInIdentifier rest = false)
    (other : u = word → read before rest = .rejected) : Passes word read before u rest := by
  induction size : u.length using Nat.strong_induction_on generalizing u before with
  | _ length ih =>
  cases u with
  | nil => exact .nil before rest
  | cons c u =>
    have charC : isIdentifierChar c := run c (by simp)
    by_cases starts : word <+: c :: u ++ rest
    · obtain ⟨after, found⟩ := starts
      obtain ⟨v, split, rfl⟩ := prefix_of_identifier identifier ends found.symm
      have shorter : v.length < length := by
        have := List.length_pos_iff.mpr nonempty
        have := congrArg List.length split
        simp only [List.length_append] at this
        omega
      rw [split] at run other ⊢
      have rejected : read before (v ++ rest) = .rejected := by
        cases v with
        | nil => exact other (by simp)
        | cons d v =>
          have := run d (by simp)
          exact whole _ _ (.inr (by simp [startsInIdentifier, this]))
      have ended : endsInIdentifier (word.reverse ++ before) := by
        obtain ⟨init, last, rfl⟩ := (List.eq_nil_or_concat word).resolve_left nonempty
        simp [endsInIdentifier, identifier last (by simp)]
      refine .append (.of_rejected rejected) (ih v.length shorter _ (fun d mem => run d (by simp [mem])) ?_ rfl)
      exact fun _ => whole _ _ (.inl ended)
    · refine .append (u := [c]) (.char before starts) (ih u.length ?_ _ (fun d mem => run d (by simp [mem])) ?_ rfl)
      · rw [← size, List.length_cons]
        omega
      · exact fun _ => whole _ _ (.inl (by simp [endsInIdentifier, charC]))

end
end PluginAudit.Code
