import PluginAudit.Proofs.Code.WrittenCall
import Mathlib.Data.List.Basic

/-!
# Calls of listed arguments

A call is written with a list of arguments, commas between them, and white space wherever it may stand. In a text
that consists of such calls exactly these are found, each with its arguments and its place (`calls_listed`).
-/
namespace PluginAudit.Code

/-- A call of listed arguments as it is written: the text before it, the white space after `new` if it
    is a creation, after its name and around each argument, and what is between the parentheses if no
    argument is listed. -/
structure ListedCall where
  filler : Text
  afterNew : Gap
  gap : Gap
  arguments : List Text
  before : Nat → Gap
  after : Nat → Gap
  blank : Gap

/-- A text neither begins nor ends with white space. -/
structure Tight (t : Text) : Prop where
  first : ∀ c ∈ t.head?, isBlank c = false
  last : ∀ c ∈ t.getLast?, isBlank c = false

namespace ListedCall

def inner (call : ListedCall) : Text :=
  if call.arguments = [] then call.blank.text
  else [','].intercalate (spaced call.before call.after call.arguments)

def written (call : ListedCall) : WrittenCall := ⟨call.filler, call.afterNew.text, call.gap.text, call.inner⟩

def opening (marker : Marker) (call : ListedCall) : Text :=
  call.filler ++ call.written.lead marker ++ marker.name ++ call.gap.text ++ ['(']

def text (marker : Marker) (call : ListedCall) : Text := call.opening marker ++ call.inner ++ [')']

/-- What has to hold of a call for the search to find it and nothing before it, and for its arguments
    to be those that are listed. -/
structure Proper (marker : Marker) (call : ListedCall) : Prop where
  free : ¬ marker.name <:+: call.filler
  apart : endsInIdentifier call.filler.reverse = false
  afterNew : ∀ name, marker = .creation name → call.afterNew.text ≠ []
  each : ∀ t ∈ call.arguments, Argument t
  tight : ∀ t ∈ call.arguments, Tight t
  listed : call.arguments ≠ [[]]

end ListedCall

variable {marker : Marker} {call : ListedCall}

theorem Tight.trim {t : Text} (tight : Tight t) : t.trim = t := Text.trim_eq_self tight.first tight.last

theorem ListedCall.text_eq (marker : Marker) (call : ListedCall) : call.text marker = call.written.text marker := by
  simp [text, opening, WrittenCall.text, WrittenCall.tail, written]

theorem ListedCall.flatMap_text (marker : Marker) (calls : List ListedCall) :
    calls.flatMap (·.text marker) = (calls.map written).flatMap (·.text marker) := by
  rw [List.flatMap_map]
  exact List.flatMap_congr fun call _ => text_eq marker call

theorem balanced_of_blank {gap : Text} (white : gap.blank) : Balanced gap := by
  have gapOnly : Argument ([] ++ [] ++ gap) := .spaced rfl .nil white
  simpa using gapOnly.balanced

theorem ListedCall.argument_spaced (each : ∀ t ∈ call.arguments, Argument t) :
    ∀ t ∈ spaced call.before call.after call.arguments, Argument t := by
  intro t mem
  obtain ⟨argument, listed, i, rfl⟩ := mem_spaced mem
  exact .spaced (call.before i).white (each argument listed) (call.after i).white

namespace ListedCall.Proper

theorem balanced_inner (proper : call.Proper marker) : Balanced call.inner := by
  rw [inner]
  split
  · exact balanced_of_blank call.blank.white
  · exact .intercalate fun t mem => (argument_spaced proper.each t mem).balanced

theorem arguments_inner (proper : call.Proper marker) : Code.arguments call.inner = call.arguments := by
  rw [inner]
  split
  next none => rw [Code.arguments, if_pos call.blank.white, none]
  next =>
    have trimmed := map_trim_spaced call.before call.after fun t mem => (proper.tight t mem).trim
    have listed : (spaced call.before call.after call.arguments).map Text.trim ≠ [[]] := by
      rw [trimmed]
      exact proper.listed
    rw [arguments_intercalate (argument_spaced proper.each) listed, trimmed]

theorem written (proper : call.Proper marker) : call.written.Proper marker where
  free := proper.free
  apart := proper.apart
  afterNew name creation := ⟨call.afterNew.white, proper.afterNew name creation⟩
  gap := call.gap.white
  balanced := proper.balanced_inner

end ListedCall.Proper

theorem WrittenCall.blocks_eq_mapIdx (marker : Marker) (offset : Nat) (calls : List WrittenCall) :
    WrittenCall.blocks marker offset calls = calls.mapIdx fun i call =>
      call.block marker (offset + Text.byteSize ((calls.take i).flatMap (·.text marker))) := by
  induction calls generalizing offset with
  | nil => rfl
  | cons call calls ih =>
    rw [blocks, ih, List.mapIdx_cons]
    simp [Nat.add_assoc]

/-- The calls of a text that consists of calls of listed arguments, and of text without their name after
    them, are those that were written, in order. Each comes with the byte offset of its argument text. -/
theorem calls_listed (nonempty : marker.name ≠ []) (identifier : Identifier marker.name)
    {calls : List ListedCall} (proper : ∀ call ∈ calls, call.Proper marker) {last : Text}
    (free : ¬ marker.name <:+: last) :
    Code.calls marker (calls.flatMap (·.text marker) ++ last) = calls.mapIdx fun i call =>
      (Text.byteSize ((calls.take i).flatMap (·.text marker) ++ call.opening marker), call.arguments) := by
  have written : ∀ call ∈ calls.map ListedCall.written, call.Proper marker := by
    intro call mem
    obtain ⟨listed, mem', rfl⟩ := List.mem_map.mp mem
    exact (proper listed mem').written
  have found := blocks_written nonempty identifier written free
  rw [Code.calls, ListedCall.flatMap_text, found, WrittenCall.blocks_eq_mapIdx]
  refine List.ext_getElem (by simp) fun i bound _ => ?_
  have listed : i < calls.length := by simpa using bound
  have arguments := (proper calls[i] (List.getElem_mem listed)).arguments_inner
  simp only [List.getElem_map, List.getElem_mapIdx, ← List.map_take, ← ListedCall.flatMap_text]
  refine Prod.ext ?_ arguments
  rw [Text.byteSize_append, WrittenCall.block, Nat.zero_add]
  rfl

/-- Two creations of the type `new`. The first has an argument that is a string of delimiters and one
    that holds a creation of the type; the second has none. -/
def creations : List ListedCall :=
  [⟨lit "\"(", .space, .lineFeed, [lit "\"a,)\\\"\"", lit "new new(b, \"(\")"],
      fun _ => .space, fun _ => .none, .none⟩,
   ⟨lit ";)", ⟨lit "\t\t", by decide⟩, .none, [], fun _ => .none, fun _ => .none, .space⟩]

theorem calls_creations : (Marker.creation (lit "new")).name ≠ [] ∧ Identifier (Marker.creation (lit "new")).name ∧
    (∀ call ∈ creations, call.Proper (.creation (lit "new"))) ∧ ¬ (Marker.creation (lit "new")).name <:+: lit ")\"" ∧
    Code.calls (.creation (lit "new")) (creations.flatMap (·.text (.creation (lit "new"))) ++ lit ")\"") =
      [(11, [lit "\"a,)\\\"\"", lit "new new(b, \"(\")"]), (48, [])] := by
  have nonempty : (Marker.creation (lit "new")).name ≠ [] := by decide
  have identifier : Identifier (Marker.creation (lit "new")).name := by decide
  have free : ¬ (Marker.creation (lit "new")).name <:+: lit ")\"" := by decide
  have string : Argument (quoted [.plain 'a', .plain ',', .plain ')', .escaped '"']) := .quoted (by simp [Item.Proper])
  have parenthesis : Argument (quoted [.plain '(']) := .quoted (by simp [Item.Proper])
  have plain (t : Text) (free : Undelimited t) : Argument t := free.argument
  have quote : Argument (lit " \"(\"") := (plain [' '] (by decide)).append parenthesis
  have inner : Balanced (lit "b, \"(\"") := by
    have both : ∀ t ∈ [lit "b", lit " \"(\""], Balanced t :=
      List.forall_mem_cons.mpr ⟨(plain _ (by decide)).balanced, List.forall_mem_cons.mpr ⟨quote.balanced, by simp⟩⟩
    exact .intercalate both
  have creation : Argument (lit "new new(b, \"(\")") := (plain (lit "new new") (by decide)).append (.group inner .nil)
  have proper : ∀ call ∈ creations, call.Proper (.creation (lit "new")) := by
    refine List.forall_mem_cons.mpr ⟨?_, List.forall_mem_cons.mpr ⟨?_, by simp⟩⟩
    · exact {
        free := by decide
        apart := by decide
        afterNew := fun _ _ => by decide
        each := List.forall_mem_cons.mpr ⟨string, List.forall_mem_cons.mpr ⟨creation, by simp⟩⟩
        tight := List.forall_mem_cons.mpr ⟨⟨by rintro c ⟨⟩; decide, by rintro c ⟨⟩; decide⟩,
          List.forall_mem_cons.mpr ⟨⟨by rintro c ⟨⟩; decide, by rintro c ⟨⟩; decide⟩, by simp⟩⟩
        listed := by decide }
    · exact {
        free := by decide
        apart := by decide
        afterNew := fun _ _ => by decide
        each := by simp
        tight := by simp
        listed := by decide }
  exact ⟨nonempty, identifier, proper, free, (calls_listed nonempty identifier proper free).trans (by decide)⟩

end PluginAudit.Code
