import PluginAudit.Proofs.Code.WrittenCall

/-!
# What a search finds part by part

A part of a text yields items if a search finds these in it, wherever it stands, and goes on after it. What a text
yields is composed of what its parts yield.
-/
namespace PluginAudit.Code

section
variable {α : Type} {read : Text → Text → Reading α} {word : Text}

/-- A search finds given items in a part of a text that does not continue an identifier, and goes on
    after it, where an identifier may begin. -/
def Yields (word : Text) (read : Text → Text → Reading α) (u : Text) (items : List α) : Prop :=
  ∀ before, endsInIdentifier before = false → endsInIdentifier (u.reverse ++ before) = false ∧
    ∀ offset rest, (occurrencesFrom word read offset before (u ++ rest)).map Prod.snd =
      items ++ (occurrencesFrom word read (offset + u.byteSize) (u.reverse ++ before) rest).map Prod.snd

theorem Yields.nil : Yields word read [] [] := fun _ apart => ⟨apart, fun _ _ => rfl⟩

theorem Yields.append {u v : Text} {items others : List α} (first : Yields word read u items)
    (second : Yields word read v others) : Yields word read (u ++ v) (items ++ others) := by
  intro before apart
  obtain ⟨between, found⟩ := first before apart
  obtain ⟨after, found'⟩ := second (u.reverse ++ before) between
  refine ⟨by simpa using after, fun offset rest => ?_⟩
  rw [List.append_assoc, found, found']
  simp [Nat.add_assoc]

theorem Yields.flatMap {σ : Type} {parts : List σ} {text : σ → Text} {items : σ → List α}
    (each : ∀ part ∈ parts, Yields word read (text part) (items part)) :
    Yields word read (parts.flatMap text) (parts.flatMap items) := by
  induction parts with
  | nil => exact .nil
  | cons part parts ih =>
    exact (each part (by simp)).append (ih fun other mem => each other (by simp [mem]))

/-- What a whole text yields is what the search finds. -/
theorem Yields.occurrences {t : Text} {items : List α} (yields : Yields word read t items) :
    (occurrences word read t).map Prod.snd = items := by
  have found := (yields [] rfl).2 0 []
  rw [List.append_nil] at found
  rw [occurrences_eq, found, occurrencesFrom_nil, List.map_nil, List.append_nil]

theorem endsInIdentifier_append {mark before : Text} (free : NoIdentifier mark)
    (apart : endsInIdentifier before = false ∨ mark ≠ []) : endsInIdentifier (mark.reverse ++ before) = false := by
  cases eq : mark.reverse with
  | nil => exact apart.resolve_right (by simpa using eq)
  | cons c others => simpa [endsInIdentifier] using free c (List.mem_reverse.mp (by simp [eq]))

section
variable (identifier : Identifier word) (nonempty : word ≠ [])
include identifier nonempty

theorem Yields.mark {mark : Text} (free : NoIdentifier mark) : Yields word read mark [] := by
  intro before apart
  refine ⟨endsInIdentifier_append free (.inl apart), fun offset rest => ?_⟩
  rw [Passes.of_no_identifier before identifier nonempty free offset, List.nil_append]

/-- An identifier and what sets it apart from the next one yield nothing, unless it is the word. -/
theorem Yields.other (whole : WholeWord read) {name mark : Text} (run : Identifier name) (marked : mark ≠ [])
    (free : NoIdentifier mark)
    (other : name = word → ∀ before rest, read before (mark ++ rest) = .rejected) :
    Yields word read (name ++ mark) [] := by
  intro before _
  have ends : endsInIdentifier ((name ++ mark).reverse ++ before) = false := by
    rw [List.reverse_append, List.append_assoc]
    exact endsInIdentifier_append free (.inr marked)
  refine ⟨ends, fun offset rest => ?_⟩
  have starts : startsInIdentifier (mark ++ rest) = false := by
    cases mark with
    | nil => exact absurd rfl marked
    | cons c mark => simpa [startsInIdentifier] using free c (by simp)
  have passes : Passes word read before (name ++ mark) rest :=
    .append (.identifier before whole identifier nonempty run starts fun same => other same before rest)
      (.of_no_identifier _ identifier nonempty free)
  rw [passes offset, List.nil_append]

end

theorem Yields.found {taken : Text} {item : α} (nonempty : word ≠ []) (takes : taken ≠ [])
    (ends : taken.getLast?.any isIdentifierChar = false) (found : ∀ before rest, endsInIdentifier before = false →
      read before (taken ++ rest) = .found item taken.length) : Yields word read (word ++ taken) [item] := by
  intro before apart
  refine ⟨?_, fun offset rest => ?_⟩
  · obtain ⟨init, last, rfl⟩ := (List.eq_nil_or_concat taken).resolve_left takes
    simpa [endsInIdentifier] using ends
  · rw [List.append_assoc, occurrencesFrom_found nonempty (found before rest apart)]
    rfl

end

theorem yields_call {name inner : Text} (nonempty : name ≠ []) (balanced : Balanced inner) :
    Yields name (Marker.call name).read (name ++ '(' :: (inner ++ [')'])) [(1, inner)] := by
  let call : WrittenCall := ⟨[], [], [], inner⟩
  have proper : call.Proper (.call name) := {
    free := fun inside => nonempty (List.infix_nil.mp inside)
    apart := rfl
    afterNew := by simp
    gap := rfl
    balanced := balanced }
  refine .found nonempty (by simp) ?_ fun before rest apart => proper.read apart rest
  have closing : isIdentifierChar ')' = false := by decide
  rw [← List.cons_append, List.getLast?_concat, Option.any_some, closing]

theorem yields_label {keyword gap : Text} (nonempty : keyword ≠ []) (white : gap.blank) (spaced : gap ≠ [])
    {items : List Item} (proper : ∀ item ∈ items, item.Proper) :
    Yields keyword readLabel (keyword ++ (gap ++ quoted items)) [⟨items, gap.byteSize, true⟩] := by
  refine .found nonempty (by simp [spaced]) ?_ fun before rest apart => ?_
  · have quote : isIdentifierChar '"' = false := by decide
    rw [quoted, ← List.cons_append, ← List.append_assoc, List.getLast?_concat, Option.any_some, quote]
  · exact readLabel_quoted apart white spaced proper rest

theorem readLabel_quote (before after : Text) : readLabel before ('"' :: after) = .rejected := by
  have quote : isBlank '"' = false := by decide
  rw [readLabel]
  split
  · rfl
  · simp [quote]

theorem Marker.read_quote (marker : Marker) (before after : Text) : marker.read before ('"' :: after) = .rejected := by
  have quote : isBlank '"' = false := by decide
  refine marker.read_rejected before ?_
  simp [quote]

end PluginAudit.Code
