import PluginAudit.Proofs.Code.Occurrence

/-!
# Written calls

In a text that consists of written calls, each a name in front of a balanced text in parentheses, the search finds
these calls and no others, each at its place (`blocks_written`).
-/
namespace PluginAudit.Code

/-- A call as it is written: the text before it, the white space after `new` if it is a creation, the
    white space after its name, and the text between its parentheses. -/
structure WrittenCall where
  filler : Text
  afterNew : Text
  gap : Text
  inner : Text

namespace WrittenCall

def lead (marker : Marker) (call : WrittenCall) : Text :=
  match marker with
  | .call _ => []
  | .creation _ => lit "new" ++ call.afterNew

def tail (call : WrittenCall) : Text := call.gap ++ '(' :: (call.inner ++ [')'])

def text (marker : Marker) (call : WrittenCall) : Text :=
  call.filler ++ call.lead marker ++ (marker.name ++ call.tail)

/-- What has to hold of a call for the search to find it and nothing before it. -/
structure Proper (marker : Marker) (call : WrittenCall) : Prop where
  free : ¬ marker.name <:+: call.filler
  apart : endsInIdentifier call.filler.reverse = false
  afterNew : ∀ name, marker = .creation name → call.afterNew.blank ∧ call.afterNew ≠ []
  gap : call.gap.blank
  balanced : Balanced call.inner

def block (marker : Marker) (offset : Nat) (call : WrittenCall) : Block :=
  ⟨offset + (call.filler ++ call.lead marker ++ marker.name ++ call.gap ++ ['(']).byteSize, call.inner⟩

def blocks (marker : Marker) (offset : Nat) : List WrittenCall → List Block
  | [] => []
  | call :: calls => call.block marker offset :: blocks marker (offset + (call.text marker).byteSize) calls

end WrittenCall

variable {marker : Marker} {call : WrittenCall} {before after : Text}

theorem endsInNew_append {gap : Text} (white : gap.blank) (nonempty : gap ≠ []) (before : Text) :
    endsInNew ((lit "new" ++ gap).reverse ++ before) = !endsInIdentifier before := by
  have reversed : gap.reverse ≠ [] := by simpa using nonempty
  have white' : ∀ c ∈ gap.reverse, isBlank c := fun c mem => Text.isBlank_of_mem white (List.mem_reverse.mp mem)
  have solid : isBlank 'w' = false := by decide
  cases eq : gap.reverse with
  | nil => exact absurd eq reversed
  | cons c g =>
    rw [eq] at white'
    have word : (lit "new").reverse = ['w', 'e', 'n'] := rfl
    rw [List.reverse_append, eq, word, List.append_assoc, List.cons_append, endsInNew, white' c (by simp),
      Bool.true_and, List.dropWhile_append_of_pos fun d mem => white' d (by simp [mem])]
    simp [solid]

theorem WrittenCall.Proper.fits (proper : call.Proper marker) (apart : endsInIdentifier before = false) :
    marker.fits ((call.filler ++ call.lead marker).reverse ++ before) := by
  have ends : endsInIdentifier (call.filler.reverse ++ before) = false := by
    cases eq : call.filler.reverse with
    | nil => exact apart
    | cons c filler => simpa [eq, endsInIdentifier] using proper.apart
  cases marker with
  | call name => simpa [Marker.fits, WrittenCall.lead] using ends
  | creation name =>
    obtain ⟨white, nonempty⟩ := proper.afterNew name rfl
    rw [Marker.fits, WrittenCall.lead, List.reverse_append, List.append_assoc, endsInNew_append white nonempty, ends]
    rfl

/-- White space and a balanced text in parentheses are read as a block where the name of a call may stand. -/
theorem Marker.read_found {gap inner : Text} (fits : marker.fits before) (white : gap.blank) (balanced : Balanced inner)
    (rest : Text) : marker.read before (gap ++ '(' :: (inner ++ ')' :: rest)) =
      .found (gap.byteSize + 1, inner) (gap.length + inner.length + 2) := by
  have white' : ∀ c ∈ gap, isBlank c := fun c mem => Text.isBlank_of_mem white mem
  have solid : isBlank '(' = false := by decide
  have closed := balanced.balanced? rest
  rw [Marker.read, if_pos fits, List.dropWhile_append_of_pos white', List.takeWhile_append_of_pos white']
  simp [solid, closed]

theorem WrittenCall.Proper.read (proper : call.Proper marker) (apart : endsInIdentifier before = false) (rest : Text) :
    marker.read ((call.filler ++ call.lead marker).reverse ++ before) (call.tail ++ rest) =
      .found (call.gap.byteSize + 1, call.inner) call.tail.length := by
  have written : call.tail ++ rest = call.gap ++ '(' :: (call.inner ++ ')' :: rest) := by
    simp [WrittenCall.tail]
  have length : call.tail.length = call.gap.length + call.inner.length + 2 := by
    simp only [WrittenCall.tail, List.length_append, List.length_cons, List.length_nil]
    omega
  rw [written, length]
  exact Marker.read_found (proper.fits apart) proper.gap proper.balanced rest

/-- The search passes over what a proper call has in front of its name. -/
theorem WrittenCall.Proper.passes (proper : call.Proper marker) (nonempty : marker.name ≠ [])
    (identifier : Identifier marker.name) (before rest : Text) :
    Passes marker.name marker.read before (call.filler ++ call.lead marker) (marker.name ++ rest) := by
  have filler : ∀ rest, Passes marker.name marker.read before call.filler rest :=
    fun rest => .of_free before identifier proper.free (.inl proper.apart)
  cases marker with
  | call name => simpa [WrittenCall.lead] using filler _
  | creation name =>
    obtain ⟨white, spaced⟩ := proper.afterNew name rfl
    have word : Identifier (lit "new") := by decide
    have gap := noIdentifier_of_blank white
    refine (filler _).append (Passes.append (.identifier _ (wholeWord_read _) identifier nonempty word ?_ ?_)
      (.of_no_identifier _ identifier nonempty gap))
    · cases eq : call.afterNew with
      | nil => exact absurd eq spaced
      | cons c gap' => simpa [startsInIdentifier] using gap c (by simp [eq])
    · -- the name itself may be `new`; after white space it is followed by itself, not by a parenthesis
      intro _
      refine Marker.read_rejected _ _ ?_
      rw [List.dropWhile_append_of_pos fun c mem => Text.isBlank_of_mem white mem]
      cases name with
      | nil => exact absurd rfl nonempty
      | cons c name =>
        have first := identifier c (by simp [Marker.name])
        simp only [Marker.name, List.cons_append]
        rw [List.dropWhile_cons_of_neg (by simp [not_isBlank_of_isIdentifierChar first])]
        rintro ⟨⟩
        revert first
        decide

/-- The search for calls in proper calls and a text after them, at any place. -/
theorem occurrencesFrom_written (nonempty : marker.name ≠ []) (identifier : Identifier marker.name)
    {calls : List WrittenCall} (proper : ∀ call ∈ calls, call.Proper marker) {last : Text}
    (free : ¬ marker.name <:+: last) (offset : Nat) (apart : endsInIdentifier before = false) :
    (occurrencesFrom marker.name marker.read offset before (calls.flatMap (·.text marker) ++ last)).map
        (fun (nameEnd, gap, inner) => (⟨nameEnd + gap, inner⟩ : Block)) =
      WrittenCall.blocks marker offset calls := by
  induction calls generalizing offset before with
  | nil =>
    have passes : Passes marker.name marker.read before last [] := .of_free before identifier free (.inr rfl)
    have := passes offset
    rw [List.append_nil] at this
    rw [List.flatMap_nil, List.nil_append, this, occurrencesFrom_nil]
    rfl
  | cons call calls ih =>
    have first := proper call (by simp)
    have closed : endsInIdentifier
        (((call.filler ++ call.lead marker) ++ (marker.name ++ call.tail)).reverse ++ before) = false := by
      simp [WrittenCall.tail, endsInIdentifier]
      decide
    have rest := ih (fun other mem => proper other (by simp [mem])) (offset + (call.text marker).byteSize) closed
    have written : (call :: calls).flatMap (·.text marker) ++ last =
        (call.filler ++ call.lead marker) ++
          (marker.name ++ (call.tail ++ (calls.flatMap (·.text marker) ++ last))) := by
      simp [WrittenCall.text]
    rw [written, first.passes nonempty identifier before _ offset,
      occurrencesFrom_found nonempty (first.read apart _), List.map_cons, WrittenCall.blocks]
    rw [← rest]
    simp [WrittenCall.block, WrittenCall.text, WrittenCall.tail, Nat.add_assoc]
    rfl

/-- The blocks of a text that consists of proper calls, and of text without their name after them, are
    those of the calls. -/
theorem blocks_written (nonempty : marker.name ≠ []) (identifier : Identifier marker.name)
    {calls : List WrittenCall} (proper : ∀ call ∈ calls, call.Proper marker) {last : Text}
    (free : ¬ marker.name <:+: last) :
    blocks marker (calls.flatMap (·.text marker) ++ last) = WrittenCall.blocks marker 0 calls := by
  rw [blocks, occurrences_eq]
  exact occurrencesFrom_written nonempty identifier proper free 0 rfl

theorem WrittenCall.map_text_blocks (marker : Marker) (offset : Nat) (calls : List WrittenCall) :
    (WrittenCall.blocks marker offset calls).map Block.text = calls.map WrittenCall.inner := by
  induction calls generalizing offset with
  | nil => rfl
  | cons call calls ih => rw [WrittenCall.blocks, List.map_cons, List.map_cons, ih]; rfl

end PluginAudit.Code
