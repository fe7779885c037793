import PluginAudit.Proofs.Code.Occurrence
import PluginAudit.Proofs.Text.Slice

/-!
# Leftmost candidates

Candidates stand at places in a text, and each comes to an item, after which the search goes on, or to an end. The
items of a text are found when the leftmost candidate is taken, then the leftmost one after it, and so on
(`Leftmost`); they are determined by the candidates (`Leftmost.unique`). A search for a word finds them
(`Finds.leftmost`): what it goes over after a rejected occurrence cannot hide another, which would continue an
identifier.
-/
namespace PluginAudit.Code

variable {α β γ : Type}

/-- The leftmost candidate at or after a position. -/
structure First (Stands : Nat → γ → Prop) (position start : Nat) (candidate : γ) : Prop where
  stands : Stands start candidate
  reached : position ≤ start
  least : ∀ start' candidate', Stands start' candidate' → position ≤ start' → start ≤ start'

/-- The items from a position on, when each is what the leftmost candidate after the one before it comes to. -/
inductive Leftmost (Stands : Nat → γ → Prop) (Comes : γ → Option (β × Nat) → Prop) : Nat → List β → Prop
  | none {position : Nat} (absent : ∀ start candidate, Stands start candidate → start < position) :
      Leftmost Stands Comes position []
  | unfinished {position start : Nat} {candidate : γ} (first : First Stands position start candidate)
      (ends : Comes candidate none) : Leftmost Stands Comes position []
  | found {position start next : Nat} {candidate : γ} {item : β} {items : List β}
      (first : First Stands position start candidate) (comes : Comes candidate (some (item, next)))
      (rest : Leftmost Stands Comes next items) : Leftmost Stands Comes position (item :: items)

/-- At most one candidate stands at a place, it comes to at most one thing, and the search does not go back. -/
structure Orderly (Stands : Nat → γ → Prop) (Comes : γ → Option (β × Nat) → Prop) : Prop where
  determined : ∀ {start candidate candidate'}, Stands start candidate → Stands start candidate' → candidate = candidate'
  functional : ∀ {candidate outcome outcome'}, Comes candidate outcome → Comes candidate outcome' → outcome = outcome'
  forward : ∀ {start candidate item next}, Stands start candidate → Comes candidate (some (item, next)) → start ≤ next

section
variable {Stands : Nat → γ → Prop} {Comes : γ → Option (β × Nat) → Prop} {position start start' : Nat}
  {candidate candidate' : γ} {items items' : List β}

theorem First.not_absent (first : First Stands position start candidate) :
    ¬ ∀ start candidate, Stands start candidate → start < position :=
  fun absent => absurd first.reached (Nat.not_le_of_lt (absent _ _ first.stands))

theorem First.start_eq (first : First Stands position start candidate)
    (first' : First Stands position start' candidate') : start = start' :=
  Nat.le_antisymm (first.least _ _ first'.stands first'.reached) (first'.least _ _ first.stands first.reached)

theorem First.candidate_eq (orderly : Orderly Stands Comes) (first : First Stands position start candidate)
    (first' : First Stands position start' candidate') : candidate = candidate' := by
  obtain rfl := first.start_eq first'
  exact orderly.determined first.stands first'.stands

theorem Leftmost.unique (orderly : Orderly Stands Comes) (leftmost : Leftmost Stands Comes position items)
    (leftmost' : Leftmost Stands Comes position items') : items = items' := by
  induction leftmost generalizing items' with
  | none absent =>
    cases leftmost' with
    | none _ => rfl
    | unfinished first _ => exact absurd absent first.not_absent
    | found first _ _ => exact absurd absent first.not_absent
  | unfinished first ends =>
    cases leftmost' with
    | none absent => exact absurd absent first.not_absent
    | unfinished _ _ => rfl
    | found first' comes _ =>
      obtain rfl := first.candidate_eq orderly first'
      cases orderly.functional ends comes
  | found first comes _ ih =>
    cases leftmost' with
    | none absent => exact absurd absent first.not_absent
    | unfinished first' ends =>
      obtain rfl := first.candidate_eq orderly first'
      cases orderly.functional comes ends
    | found first' comes' rest =>
      obtain rfl := first.candidate_eq orderly first'
      cases orderly.functional comes comes'
      rw [ih rest]

theorem Leftmost.exists_candidate (orderly : Orderly Stands Comes) (leftmost : Leftmost Stands Comes position items) :
    ∀ item ∈ items, ∃ start candidate next, position ≤ start ∧ Stands start candidate ∧ Comes candidate (some (item, next)) := by
  induction leftmost with
  | none _ => simp
  | unfinished _ _ => simp
  | @found position start next candidate item items first comes rest ih =>
    refine List.forall_mem_cons.mpr ⟨⟨start, candidate, next, first.reached, first.stands, comes⟩, fun item mem => ?_⟩
    obtain ⟨start', candidate', next', after, stands, comes'⟩ := ih item mem
    have onward := orderly.forward first.stands comes
    exact ⟨start', candidate', next', (first.reached.trans onward).trans after, stands, comes'⟩

/-- What holds of two candidates of which the second begins where the search goes on after the first, or later, holds
    of the items in order. -/
theorem Leftmost.pairwise {R : β → β → Prop} (orderly : Orderly Stands Comes)
    (leftmost : Leftmost Stands Comes position items)
    (apart : ∀ start candidate item next start' candidate' item' next', Stands start candidate →
      Comes candidate (some (item, next)) → Stands start' candidate' → Comes candidate' (some (item', next')) →
      next ≤ start' → R item item') : items.Pairwise R := by
  induction leftmost with
  | none _ => exact .nil
  | unfinished _ _ => exact .nil
  | found first comes rest ih =>
    refine .cons (fun item mem => ?_) ih
    obtain ⟨_, _, _, after, stands, comes'⟩ := rest.exists_candidate orderly item mem
    exact apart _ _ _ _ _ _ _ _ first.stands comes stands comes' after

/-- A candidate comes to one of the items, or it begins inside one that does, or not before one that comes to an end
    and is after all of the items. -/
theorem Leftmost.mem_or (orderly : Orderly Stands Comes) (leftmost : Leftmost Stands Comes position items)
    (stands : Stands start candidate) (reached : position ≤ start) :
    (∃ item ∈ items, ∃ next, Comes candidate (some (item, next))) ∨
    (∃ item ∈ items, ∃ start' candidate' next, Stands start' candidate' ∧ Comes candidate' (some (item, next)) ∧
      start' < start ∧ start < next) ∨
    ∃ start' candidate', Stands start' candidate' ∧ Comes candidate' Option.none ∧ position ≤ start' ∧ start' ≤ start ∧
      ∀ item ∈ items, ∃ start'' candidate'' next, Stands start'' candidate'' ∧
        Comes candidate'' (some (item, next)) ∧ next ≤ start' := by
  induction leftmost with
  | none absent => exact absurd reached (Nat.not_le_of_lt (absent start candidate stands))
  | unfinished first ends =>
    exact .inr (.inr ⟨_, _, first.stands, ends, first.reached, first.least _ _ stands reached, by simp⟩)
  | @found position earliest next candidate' item items first comes rest ih =>
    rcases Nat.eq_or_lt_of_le (first.least _ _ stands reached) with rfl | later
    · obtain rfl := orderly.determined first.stands stands
      exact .inl ⟨item, List.mem_cons_self, next, comes⟩
    · by_cases inside : start < next
      · exact .inr (.inl ⟨item, List.mem_cons_self, _, _, next, first.stands, comes, later, inside⟩)
      · rcases ih (Nat.le_of_not_lt inside) with ⟨item', mem, found⟩ | ⟨item', mem, found⟩ |
          ⟨start', candidate'', stands', ends, after, before, passed⟩
        · exact .inl ⟨item', List.mem_cons_of_mem item mem, found⟩
        · exact .inr (.inl ⟨item', List.mem_cons_of_mem item mem, found⟩)
        · have onward := (first.reached.trans (orderly.forward first.stands comes)).trans after
          exact .inr (.inr ⟨start', candidate'', stands', ends, onward, before,
            List.forall_mem_cons.mpr ⟨⟨_, _, next, first.stands, comes, after⟩, passed⟩⟩)

end

/-- A text does not end in an identifier character. -/
def Apart (before : Text) : Prop := ∀ c ∈ before.getLast?, isIdentifierChar c = false

variable {u t after : Text}

theorem apart_iff (before : Text) : Apart before ↔ endsInIdentifier before.reverse = false := by
  rw [Apart, endsInIdentifier, List.head?_reverse]
  cases before.getLast? <;> simp

theorem not_apart_append {v : Text} (identifier : Identifier v) (nonempty : v ≠ []) : ¬ Apart (u ++ v) := by
  intro apart
  obtain ⟨init, last, rfl⟩ := (List.eq_nil_or_concat v).resolve_left nonempty
  have ends := apart last (by simp)
  rw [identifier last (by simp)] at ends
  cases ends

/-- A cut inside a word is after an identifier character. -/
theorem byteSize_le_of_apart {word before : Text} (identifier : Identifier word)
    (same : u ++ (word ++ t) = before ++ after) (apart : Apart before) (lt : u.byteSize < before.byteSize) :
    (u ++ word).byteSize ≤ before.byteSize := by
  obtain ⟨v, rfl, eq⟩ := Text.exists_append_of_byteSize_le same (Nat.le_of_lt lt)
  rcases List.append_eq_append_iff.mp eq with ⟨m, rfl, -⟩ | ⟨m, rfl, -⟩
  · simp only [Text.byteSize_append]
    omega
  · have nonempty : v ≠ [] := by
      rintro rfl
      simp at lt
    exact absurd apart (not_apart_append (fun c mem => identifier c (by simp [mem])) nonempty)

section
variable {read : Text → Text → Reading α} {item : Nat × α → β} {word source : Text}

/-- The items that a search makes of what it finds from a place in a text on. -/
def itemsFrom (word : Text) (read : Text → Text → Reading α) (item : Nat × α → β) (u t : Text) : List β :=
  (occurrencesFrom word read u.byteSize u.reverse t).map item

theorem map_occurrences_eq (word : Text) (read : Text → Text → Reading α) (item : Nat × α → β) (t : Text) :
    (occurrences word read t).map item = itemsFrom word read item [] t := by
  rw [occurrences_eq]
  rfl

@[simp] theorem itemsFrom_nil (u : Text) : itemsFrom word read item u [] = [] := by
  rw [itemsFrom, occurrencesFrom_nil]
  rfl

theorem itemsFrom_passes {v : Text} (passes : Passes word read u.reverse v t) :
    itemsFrom word read item u (v ++ t) = itemsFrom word read item (u ++ v) t := by
  rw [itemsFrom, passes u.byteSize, ← Text.byteSize_append, ← List.reverse_append]
  rfl

theorem itemsFrom_unfinished (nonempty : word ≠ []) (unfinished : read u.reverse after = .unfinished) :
    itemsFrom word read item u (word ++ after) = [] := by
  rw [itemsFrom, occurrencesFrom_unfinished nonempty unfinished]
  rfl

theorem itemsFrom_read {reading : α} {length : Nat} (nonempty : word ≠ [])
    (found : read u.reverse after = .found reading length) : itemsFrom word read item u (word ++ after) =
      item ((u ++ word).byteSize, reading) ::
        itemsFrom word read item (u ++ word ++ after.take length) (after.drop length) := by
  rw [itemsFrom, occurrencesFrom_read nonempty found, List.map_cons, itemsFrom]
  simp

/-- Candidates stand at occurrences of a word that do not continue an identifier, and what a reader finds at an
    occurrence is what the candidate there comes to. -/
structure Finds (word : Text) (read : Text → Text → Reading α) (item : Nat × α → β) (source : Text)
    (Stands : Nat → γ → Prop) (Comes : γ → Option (β × Nat) → Prop) : Prop where
  occurs : ∀ {start candidate}, Stands start candidate →
    ∃ before after, source = before ++ (word ++ after) ∧ Apart before ∧ before.byteSize = start
  rejected : ∀ {u after}, source = u ++ (word ++ after) → read u.reverse after = .rejected →
    ∀ candidate, ¬ Stands u.byteSize candidate
  unfinished : ∀ {u after}, source = u ++ (word ++ after) → read u.reverse after = .unfinished →
    ∃ candidate, Stands u.byteSize candidate ∧ Comes candidate none
  found : ∀ {u after reading length}, source = u ++ (word ++ after) → read u.reverse after = .found reading length →
    ∃ candidate, Stands u.byteSize candidate ∧ Comes candidate
      (some (item ((u ++ word).byteSize, reading), (u ++ word ++ after.take length).byteSize))

variable {Stands : Nat → γ → Prop} {Comes : γ → Option (β × Nat) → Prop}

/-- The search from a place in a text, when all candidates from a position on are after that place. -/
theorem Finds.leftmost_itemsFrom (finds : Finds word read item source Stands Comes) (nonempty : word ≠ [])
    (identifier : Identifier word) {position : Nat} (split : source = u ++ t) (reached : position ≤ u.byteSize)
    (ahead : ∀ start candidate, Stands start candidate → position ≤ start → u.byteSize ≤ start) :
    Leftmost Stands Comes position (itemsFrom word read item u t) := by
  induction u, t using word_induction nonempty generalizing position with
  | nil u =>
    rw [itemsFrom_nil]
    refine .none fun start candidate stands => Nat.lt_of_not_le fun later => ?_
    -- the word would need room after the end of the text
    have beyond := ahead start candidate stands later
    obtain ⟨before, after, occurs, -, rfl⟩ := finds.occurs stands
    have size := congrArg Text.byteSize (split.symm.trans occurs)
    simp only [List.append_nil, Text.byteSize_append] at size
    exact nonempty (Text.eq_nil_of_byteSize_eq_zero (by omega))
  | char u c t elsewhere ih =>
    rw [← List.singleton_append, itemsFrom_passes (.char _ elsewhere)]
    refine ih (split.trans (List.append_cons u c t)) (by rw [Text.byteSize_append]; omega)
      fun start candidate stands le => ?_
    have later := ahead start candidate stands le
    obtain ⟨before, after, occurs, -, rfl⟩ := finds.occurs stands
    rw [split] at occurs
    rcases Nat.eq_or_lt_of_le later with here | lt
    · obtain ⟨rfl, tail⟩ := Text.append_inj_of_byteSize occurs here
      exact absurd ⟨after, tail.symm⟩ elsewhere
    · exact Text.byteSize_concat_le occurs lt
  | occurrence u after ih =>
    cases reading : read u.reverse after with
    | rejected =>
      have onward := @ih [] after rfl
      rw [List.append_nil] at onward
      rw [itemsFrom_passes (.of_rejected reading)]
      refine onward (by rw [split, List.append_assoc]) (by rw [Text.byteSize_append]; omega)
        fun start candidate stands le => ?_
      have later := ahead start candidate stands le
      obtain ⟨before, after', occurs, apart, rfl⟩ := finds.occurs stands
      rw [split] at occurs
      rcases Nat.eq_or_lt_of_le later with here | lt
      · obtain ⟨rfl, -⟩ := Text.append_inj_of_byteSize occurs here
        exact absurd stands (finds.rejected split reading candidate)
      · exact byteSize_le_of_apart identifier occurs apart lt
    | unfinished =>
      obtain ⟨candidate, stands, ends⟩ := finds.unfinished split reading
      rw [itemsFrom_unfinished nonempty reading]
      exact .unfinished ⟨stands, reached, ahead⟩ ends
    | found what length =>
      obtain ⟨candidate, stands, comes⟩ := finds.found split reading
      rw [itemsFrom_read nonempty reading]
      refine .found ⟨stands, reached, ahead⟩ comes ?_
      refine ih (after.take length) (after.drop length) (List.take_append_drop ..).symm ?_ (Nat.le_refl _)
        fun _ _ _ le => le
      rw [split, List.append_assoc, List.append_assoc, List.take_append_drop]

theorem Finds.leftmost (finds : Finds word read item source Stands Comes) (nonempty : word ≠ [])
    (identifier : Identifier word) : Leftmost Stands Comes 0 ((occurrences word read source).map item) := by
  rw [map_occurrences_eq]
  exact finds.leftmost_itemsFrom (u := []) nonempty identifier rfl (Nat.zero_le _) fun start _ _ _ => Nat.zero_le start

end

end PluginAudit.Code
