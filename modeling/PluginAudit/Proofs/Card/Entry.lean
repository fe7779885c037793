import PluginAudit.Card.Collection
import PluginAudit.Proofs.Text.Trim
import Mathlib.Data.Set.List

/-!
# Entries of a card list

The rules for an entry leave nothing open that a card needs: an entry that keeps them spells a card, under an id
that no earlier entry has (`exists_spelled`). It breaks each rule at most once (`rules_problems`), and all that it
can share with earlier ones is its id (`mem_elementProblems_duplicateId`).
-/
namespace PluginAudit.Card
open Json

/-- An element spells a card: it is an object that has the fields of the card among its members. -/
def Record.Spelled (r : Record) (element : Json) : Prop :=
  ∃ entry, element = .object entry ∧
    member? (lit "id") entry = some (.string r.id) ∧
    member? (lit "name") entry = some (.string r.name) ∧
    member? (lit "tagline") entry = some (.string r.tagline) ∧
    member? (lit "symbol") entry = some (.string r.symbol) ∧
    member? (lit "color") entry = some (.string r.color) ∧
    member? (lit "details") entry = some (.array (r.details.map .string))

theorem mapM_string?_eq_some_iff {elements : List Json} {ts : List Text} :
    elements.mapM Json.string? = some ts ↔ elements = ts.map .string := by
  induction elements generalizing ts with
  | nil => cases ts <;> simp
  | cons v elements ih =>
    cases ts with
    | nil => simp [Option.bind_eq_some_iff]
    | cons t ts => simp [Option.bind_eq_some_iff, string?_eq_some_iff, ih]

section
variable {entry : Entry} {owners : Registry} {key t : Text}

theorem record?_eq_some_iff {r : Record} : record? entry = some r ↔ r.Spelled (.object entry) := by
  obtain ⟨id, name, tagline, symbol, color, details⟩ := r
  simp [record?, Record.Spelled, stringMember?_eq_some_iff, mapM_string?_eq_some_iff, array?_eq_some_iff,
    Option.bind_eq_some_iff]

theorem not_isBlank_of_isIdChar {c : Char} (part : isIdChar c) : isBlank c = false := by
  have every : ∀ n ∈ Text.blankCodes, isIdChar (Char.ofNat n) = false := by decide +kernel
  by_contra white
  have := every c.toNat (Text.mem_blankCodes (by simpa using white))
  rw [Char.ofNat_toNat, part] at this
  cases this

theorem not_blank_of_isId {id : Text} (formed : isId id) : id.blank = false := by
  rw [isId, Bool.and_eq_true, List.all_eq_true] at formed
  cases id with
  | nil => cases formed.1
  | cons c id => simp [Text.blank, not_isBlank_of_isIdChar (formed.2 c List.mem_cons_self)]

theorem id?_eq_some_iff {id : Text} :
    id? entry = some id ↔ member? (lit "id") entry = some (.string id) ∧ isId id := by
  simp [id?, Option.filter_eq_some_iff, stringMember?_eq_some_iff]

theorem nonblank?_eq_some_iff :
    nonblank? key entry = some t ↔ member? key entry = some (.string t) ∧ t.blank = false := by
  simp [nonblank?, Option.filter_eq_some_iff, stringMember?_eq_some_iff]

theorem idProblems_cases (owners : Registry) (entry : Entry) :
    (id? entry = none ∧ (idProblems owners entry = [.emptyId] ∨ ∃ t, idProblems owners entry = [.invalidId t])) ∨
    ∃ id, id? entry = some id ∧ idProblems owners entry = (owners.owner? id).toList.map (.duplicateId id) := by
  rw [idProblems]
  cases found : nonblank? (lit "id") entry with
  | none =>
    refine .inl ⟨?_, .inl rfl⟩
    by_contra formed
    obtain ⟨id, formed⟩ := Option.ne_none_iff_exists'.mp formed
    obtain ⟨member, formed⟩ := id?_eq_some_iff.mp formed
    rw [nonblank?_eq_some_iff.mpr ⟨member, not_blank_of_isId formed⟩] at found
    cases found
  | some id =>
    obtain ⟨member, -⟩ := nonblank?_eq_some_iff.mp found
    by_cases formed : isId id
    · exact .inr ⟨id, id?_eq_some_iff.mpr ⟨member, formed⟩, if_pos formed⟩
    · refine .inl ⟨?_, .inr ⟨id, if_neg formed⟩⟩
      refine Option.eq_none_iff_forall_ne_some.mpr fun other eq => formed ?_
      obtain ⟨member', formed'⟩ := id?_eq_some_iff.mp eq
      rw [member] at member'
      cases member'
      exact formed'

/-- What is required of a document, of an entry, or of one of its fields. -/
inductive Rule
  | document
  | object
  | id
  | text (key : Text)
  | color
  | details
deriving DecidableEq

def Problem.rule : Problem → Rule
  | invalidDocument _ | notAList => .document
  | notAnObject => .object
  | emptyId | invalidId _ | duplicateId .. => .id
  | emptyField field => .text field
  | invalidColor _ => .color
  | emptyDetails | blankDetail => .details

def Rule.members : List Rule :=
  [.id, .text (lit "name"), .text (lit "tagline"), .text (lit "symbol"), .color, .details]

theorem rules_idProblems : ((idProblems owners entry).map Problem.rule).Sublist [.id] := by
  rcases idProblems_cases owners entry with ⟨-, eq | ⟨t, eq⟩⟩ | ⟨id, -, eq⟩
  · rw [eq]
    exact .refl _
  · rw [eq]
    exact .refl _
  · rw [eq]
    cases owners.owner? id with
    | none => exact List.nil_sublist _
    | some first => exact .refl _

theorem rules_textProblems : ((textProblems key entry).map Problem.rule).Sublist [.text key] := by
  rw [textProblems]
  split
  · exact List.nil_sublist _
  · exact .refl _

theorem rules_colorProblems : ((colorProblems entry).map Problem.rule).Sublist [.color] := by
  rw [colorProblems]
  split
  · exact List.nil_sublist _
  · exact .refl _

theorem rules_detailProblems : ((detailProblems entry).map Problem.rule).Sublist [.details] := by
  rw [detailProblems]
  split
  · exact .refl _
  · exact .refl _
  · split
    · exact List.nil_sublist _
    · exact .refl _

/-- An entry breaks each rule at most once, and in the order of the rules. -/
theorem rules_problems (owners : Registry) (entry : Entry) :
    ((problems owners entry).map Problem.rule).Sublist Rule.members := by
  simp only [problems, List.map_append]
  exact ((((rules_idProblems.append rules_textProblems).append rules_textProblems).append rules_textProblems).append
    rules_colorProblems).append rules_detailProblems

theorem nodup_rules (owners : Registry) (element : Json) :
    ((elementProblems owners element).map Problem.rule).Nodup := by
  rw [elementProblems]
  cases element.object? with
  | none => exact List.pairwise_singleton _ _
  | some entry => exact (rules_problems owners entry).nodup (by decide)

/-- The id of an element, if it is well formed; other elements claim none. -/
def claims (element : Json) : List Text := (element.object?.bind id?).toList

/-- The only thing that an entry can share with earlier ones is its id. -/
theorem mem_elementProblems_duplicateId {element : Json} {id : Text} {first : Nat} :
    .duplicateId id first ∈ elementProblems owners element ↔ id ∈ claims element ∧ owners.owner? id = some first := by
  rw [elementProblems, claims]
  cases element.object? with
  | none => simp
  | some entry =>
    -- The other problems break other rules.
    have other : ∀ {rule : Rule} {ps : List Problem}, (ps.map Problem.rule).Sublist [rule] → rule ≠ .id →
        .duplicateId id first ∉ ps := by
      intro rule ps broken ne mem
      exact ne (List.mem_singleton.mp (broken.subset (List.mem_map_of_mem mem))).symm
    simp only [problems, List.mem_append, other rules_textProblems (by simp), other rules_colorProblems (by simp),
      other rules_detailProblems (by simp), or_false, Option.bind_some]
    rcases idProblems_cases owners entry with ⟨none, eq | ⟨t, eq⟩⟩ | ⟨other, found, eq⟩
    · simp [none, eq]
    · simp [none, eq]
    · simp only [eq, found, List.mem_map, Option.mem_toList, Problem.duplicateId.injEq, Option.some.injEq]
      constructor
      · rintro ⟨_, owned, rfl, rfl⟩
        exact ⟨rfl, owned⟩
      · rintro ⟨rfl, owned⟩
        exact ⟨first, owned, rfl, rfl⟩

theorem exists_text_of_kept (kept : textProblems key entry = []) : ∃ t, member? key entry = some (.string t) := by
  rw [textProblems] at kept
  split at kept
  next present =>
    obtain ⟨t, found⟩ := Option.isSome_iff_exists.mp present
    exact ⟨t, (nonblank?_eq_some_iff.mp found).1⟩
  next => cases kept

theorem exists_color_of_kept (kept : colorProblems entry = []) :
    ∃ t, member? (lit "color") entry = some (.string t) := by
  rw [colorProblems] at kept
  split at kept
  next present =>
    obtain ⟨t, found⟩ := Option.isSome_iff_exists.mp present
    exact ⟨t, stringMember?_eq_some_iff.mp (Option.filter_eq_some_iff.mp found).1⟩
  next => cases kept

theorem exists_details_of_kept (kept : detailProblems entry = []) :
    ∃ ts : List Text, member? (lit "details") entry = some (.array (ts.map .string)) := by
  rw [detailProblems] at kept
  split at kept
  · cases kept
  · cases kept
  next details _ found =>
    split at kept
    next lines =>
      have strings : details ∈ Set.range (List.map Json.string) := by
        rw [Set.range_list_map]
        intro v mem
        obtain ⟨t, line⟩ := Option.isSome_iff_exists.mp (List.all_eq_true.mp lines v mem)
        exact ⟨t, (string?_eq_some_iff.mp (Option.filter_eq_some_iff.mp line).1).symm⟩
      obtain ⟨ts, rfl⟩ := strings
      obtain ⟨v, member, list⟩ := Option.bind_eq_some_iff.mp found
      exact ⟨ts, by rw [member, array?_eq_some_iff.mp list]⟩
    next => cases kept

/-- An entry that keeps the rules spells a card, under an id that no earlier entry has. -/
theorem exists_spelled {element : Json} (kept : elementProblems owners element = []) :
    ∃ r : Record, r.Spelled element ∧ claims element = [r.id] ∧ owners.owner? r.id = none := by
  rw [elementProblems] at kept
  cases found : element.object? with
  | none =>
    rw [found] at kept
    cases kept
  | some entry =>
    simp only [found, problems, List.append_eq_nil_iff] at kept
    obtain ⟨⟨⟨⟨⟨id, name⟩, tagline⟩, symbol⟩, color⟩, details⟩ := kept
    obtain ⟨name, isName⟩ := exists_text_of_kept name
    obtain ⟨tagline, isTagline⟩ := exists_text_of_kept tagline
    obtain ⟨symbol, isSymbol⟩ := exists_text_of_kept symbol
    obtain ⟨color, isColor⟩ := exists_color_of_kept color
    obtain ⟨details, isDetails⟩ := exists_details_of_kept details
    rcases idProblems_cases owners entry with ⟨-, eq | ⟨t, eq⟩⟩ | ⟨own, isId, eq⟩
    · simp [eq] at id
    · simp [eq] at id
    · refine ⟨⟨own, name, tagline, symbol, color, details⟩, ?_, ?_, ?_⟩
      · exact ⟨entry, object?_eq_some_iff.mp found, (id?_eq_some_iff.mp isId).1, isName, isTagline, isSymbol, isColor,
          isDetails⟩
      · simp [claims, found, isId]
      · simpa [eq] using id

end
end PluginAudit.Card
