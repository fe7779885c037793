import PluginAudit.Proofs.Card.Entry
import PluginAudit.Proofs.Registry
import Mathlib.Data.List.Forall2

/-!
# Cards and findings of a list

Every entry of a list of cards either becomes a card or has a finding (`complementary`). An id belongs to the first
entry that has it, also if that entry is no card, and every later entry that has it is told so.
-/
namespace PluginAudit

namespace Card
open Json

section
variable {owners : Registry}

/-- What is wrong with elements, each problem with the number of its element. -/
def raised (index : Nat) (owners : Registry) (elements : List Json) : List (Nat × Problem) :=
  (check index owners elements).flatMap fun (j, _, problems) => problems.map (j, ·)

/-- The cards of the elements with which nothing is wrong. -/
def made (index : Nat) (owners : Registry) (elements : List Json) : List Record :=
  (check index owners elements).filterMap fun (_, element, problems) =>
    if problems.isEmpty then element.object?.bind record? else none

theorem raised_cons (index : Nat) (owners : Registry) (element : Json) (elements : List Json) :
    raised index owners (element :: elements) = (elementProblems owners element).map (index, ·) ++
      raised (index + 1) (owners.claimAll index (claims element)) elements := rfl

theorem made_cons_of_kept {index : Nat} {element : Json} {r : Record} (kept : elementProblems owners element = [])
    (spelled : r.Spelled element) (elements : List Json) : made index owners (element :: elements) =
      r :: made (index + 1) (owners.claimAll index (claims element)) elements := by
  obtain ⟨entry, rfl, members⟩ := spelled
  have read : record? entry = some r := record?_eq_some_iff.mpr ⟨entry, rfl, members⟩
  simp [made, check, claims, kept, Json.object?, read]

theorem made_cons_of_broken {index : Nat} {element : Json} (broken : elementProblems owners element ≠ [])
    (elements : List Json) : made index owners (element :: elements) =
      made (index + 1) (owners.claimAll index (claims element)) elements := by
  simp [made, check, claims, broken]

/-- What is wrong with an element is told under its number, given that the elements before it have claimed their ids. -/
theorem mem_raised_iff {index j : Nat} {elements : List Json} {p : Problem} : (j, p) ∈ raised index owners elements ↔
    ∃ k element, j = index + k ∧ elements[k]? = some element ∧
      p ∈ elementProblems (Registry.after claims owners index (elements.take k)) element := by
  induction elements generalizing index owners with
  | nil => simp [raised, check]
  | cons head elements ih =>
    rw [raised_cons, List.mem_append, ih]
    constructor
    · rintro (mem | ⟨k, element, rfl, at?, mem⟩)
      · obtain ⟨p, mem, eq⟩ := List.mem_map.mp mem
        cases eq
        exact ⟨0, head, rfl, rfl, mem⟩
      · exact ⟨k + 1, element, by omega, at?, mem⟩
    · rintro ⟨k, element, rfl, at?, mem⟩
      cases k with
      | zero =>
        cases at?
        exact .inl (List.mem_map_of_mem mem)
      | succ k => exact .inr ⟨k, element, by omega, at?, mem⟩

theorem number_of_mem_raised {index : Nat} {elements : List Json} {found : Nat × Problem}
    (mem : found ∈ raised index owners elements) : index ≤ found.1 ∧ found.1 < index + elements.length := by
  obtain ⟨k, element, eq, at?, -⟩ := mem_raised_iff.mp mem
  have bound := (List.getElem?_eq_some_iff.mp at?).1
  omega

/-- Problems come in the order of the elements, and those of one element break different rules. -/
theorem pairwise_raised (index : Nat) (owners : Registry) (elements : List Json) :
    (raised index owners elements).Pairwise fun a b => a.1 < b.1 ∨ a.1 = b.1 ∧ a.2.rule ≠ b.2.rule := by
  induction elements generalizing index owners with
  | nil => exact .nil
  | cons element elements ih =>
    rw [raised_cons]
    refine List.pairwise_append.mpr ⟨?_, ih _ _, fun a here b later => ?_⟩
    · have different := List.pairwise_map.mp (nodup_rules owners element)
      exact List.pairwise_map.mpr (different.imp fun ne => .inr ⟨rfl, ne⟩)
    · obtain ⟨p, -, rfl⟩ := List.mem_map.mp here
      have := (number_of_mem_raised later).1
      exact .inl (by simp only; omega)

/-- The elements with which nothing is wrong spell the cards, in order. -/
theorem forall₂_made {index : Nat} {elements : List Json} {quiet : Nat → Bool}
    (quiet_iff : ∀ j ≥ index, quiet j ↔ ∀ p, (j, p) ∉ raised index owners elements) :
    List.Forall₂ (fun element r => Record.Spelled r element)
      (((elements.zipIdx index).filter fun (_, j) => quiet j).map Prod.fst) (made index owners elements) := by
  induction elements generalizing index owners with
  | nil => exact .nil
  | cons element elements ih =>
    have here : quiet index ↔ elementProblems owners element = [] := by
      rw [quiet_iff index (Nat.le_refl _), List.eq_nil_iff_forall_not_mem]
      refine forall_congr' fun p => not_congr ?_
      rw [raised_cons, List.mem_append, List.mem_map]
      constructor
      · rintro (⟨p, mem, eq⟩ | later)
        · cases eq
          exact mem
        · exact absurd (number_of_mem_raised later).1 (Nat.not_succ_le_self index)
      · exact fun mem => .inl ⟨p, mem, rfl⟩
    have later : ∀ j ≥ index + 1, quiet j ↔
        ∀ p, (j, p) ∉ raised (index + 1) (owners.claimAll index (claims element)) elements := by
      intro j after
      rw [quiet_iff j (by omega)]
      refine forall_congr' fun p => not_congr ?_
      rw [raised_cons, List.mem_append, List.mem_map]
      refine or_iff_right ?_
      rintro ⟨p, -, eq⟩
      cases eq
      omega
    by_cases kept : elementProblems owners element = []
    · obtain ⟨r, spelled, -⟩ := exists_spelled kept
      simp only [List.zipIdx_cons, List.filter_cons, here.mpr kept, ↓reduceIte, List.map_cons]
      rw [made_cons_of_kept kept spelled]
      exact .cons spelled (ih later)
    · simp only [List.zipIdx_cons, List.filter_cons, here, kept, ↓reduceIte]
      rw [made_cons_of_broken kept]
      exact ih later

theorem fresh_made (index : Nat) (owners : Registry) (elements : List Json) :
    (∀ r ∈ made index owners elements, owners.owner? r.id = none) ∧
      ((made index owners elements).map (·.id)).Nodup := by
  induction elements generalizing index owners with
  | nil => simp [made, check]
  | cons element elements ih =>
    obtain ⟨fresh, different⟩ := ih (index + 1) (owners.claimAll index (claims element))
    simp only [Registry.owner?_claimAll] at fresh
    have unclaimed : ∀ r ∈ made (index + 1) (owners.claimAll index (claims element)) elements,
        r.id ∉ claims element ∧ owners.owner? r.id = none := by
      intro r mem
      have := fresh r mem
      split at this
      next => cases this
      next apart => exact ⟨apart, this⟩
    by_cases kept : elementProblems owners element = []
    · obtain ⟨r, spelled, claimed, free⟩ := exists_spelled kept
      rw [made_cons_of_kept kept spelled]
      refine ⟨List.forall_mem_cons.mpr ⟨free, fun other mem => (unclaimed other mem).2⟩, ?_⟩
      rw [List.map_cons, List.nodup_cons]
      refine ⟨fun again => ?_, different⟩
      obtain ⟨other, mem, same⟩ := List.mem_map.mp again
      exact (unclaimed other mem).1 (by simp [claimed, same])
    · rw [made_cons_of_broken kept]
      exact ⟨fun other mem => (unclaimed other mem).2, different⟩

/-- The entry of a given number, counted from one, is an object with a given string for its id. -/
def HasId (elements : List Json) (j : Nat) (id : Text) : Prop :=
  ∃ k entry, j = k + 1 ∧ elements[k]? = some (.object entry) ∧ member? (lit "id") entry = some (.string id)

/-- The entry of a given number is the first that has an id. -/
def FirstWithId (elements : List Json) (id : Text) (first : Nat) : Prop :=
  HasId elements first id ∧ ∀ i < first, ¬ HasId elements i id

theorem hasId_iff {elements : List Json} {j : Nat} {id : Text} : HasId elements j id ↔
    j ≠ 0 ∧ (elements[j - 1]?.bind fun element => element.object?.bind (stringMember? (lit "id"))) = some id := by
  simp only [Option.bind_eq_some_iff, object?_eq_some_iff, stringMember?_eq_some_iff]
  constructor
  · rintro ⟨k, entry, rfl, at?, member⟩
    exact ⟨Nat.succ_ne_zero k, _, at?, entry, rfl, member⟩
  · rintro ⟨positive, _, at?, entry, rfl, member⟩
    exact ⟨j - 1, entry, by omega, at?, member⟩

instance (elements : List Json) (j : Nat) (id : Text) : Decidable (HasId elements j id) :=
  decidable_of_iff _ hasId_iff.symm

instance (elements : List Json) (id : Text) (first : Nat) : Decidable (FirstWithId elements id first) :=
  inferInstanceAs (Decidable (_ ∧ _))

theorem not_hasId_zero (elements : List Json) (id : Text) : ¬ HasId elements 0 id := by
  rintro ⟨k, entry, zero, -⟩
  cases zero

theorem hasId_succ_iff {elements : List Json} {k : Nat} {id : Text} (formed : isId id) :
    HasId elements (k + 1) id ↔ ∃ element, elements[k]? = some element ∧ id ∈ claims element := by
  constructor
  · rintro ⟨k, entry, eq, at?, member⟩
    cases eq
    refine ⟨_, at?, ?_⟩
    rw [claims, Json.object?, Option.bind_some, Option.mem_toList]
    exact id?_eq_some_iff.mpr ⟨member, formed⟩
  · rintro ⟨element, at?, claimed⟩
    obtain ⟨entry, found, isId⟩ := Option.bind_eq_some_iff.mp (Option.mem_toList.mp claimed)
    obtain rfl := object?_eq_some_iff.mp found
    exact ⟨k, entry, rfl, at?, (id?_eq_some_iff.mp isId).1⟩

/-- When an element is checked, the well-formed ids before it belong to the first entries that have them. -/
theorem owner?_before_iff {elements : List Json} {k first : Nat} {id : Text} (formed : isId id) :
    (Registry.after claims .empty 1 (elements.take k)).owner? id = some first ↔
      first < k + 1 ∧ FirstWithId elements id first := by
  rw [Registry.owner?_after, Registry.owner?_empty, Option.none_or, Registry.firstClaim?_eq_some_iff]
  constructor
  · rintro ⟨i, element, rfl, at?, claimed, none⟩
    rw [List.getElem?_take] at at?
    split at at?
    next before =>
      rw [Nat.add_comm]
      refine ⟨by omega, (hasId_succ_iff formed).mpr ⟨element, at?, claimed⟩, fun n bound has => ?_⟩
      cases n with
      | zero => exact not_hasId_zero elements id has
      | succ n =>
        obtain ⟨earlier, at?, claimed⟩ := (hasId_succ_iff formed).mp has
        refine none n (by omega) earlier ?_ claimed
        rw [List.getElem?_take_of_lt (by omega)]
        exact at?
    next => cases at?
  · rintro ⟨before, has, least⟩
    cases first with
    | zero => exact absurd has (not_hasId_zero elements id)
    | succ i =>
      obtain ⟨element, at?, claimed⟩ := (hasId_succ_iff formed).mp has
      refine ⟨i, element, by omega, ?_, claimed, fun n bound earlier at? claimed => ?_⟩
      · rw [List.getElem?_take_of_lt (by omega)]
        exact at?
      · rw [List.getElem?_take_of_lt (by omega)] at at?
        exact least (n + 1) (by omega) ((hasId_succ_iff formed).mpr ⟨earlier, at?, claimed⟩)

theorem isId_of_mem_claims {element : Json} {id : Text} (claimed : id ∈ claims element) : isId id := by
  obtain ⟨entry, -, isId⟩ := Option.bind_eq_some_iff.mp (Option.mem_toList.mp claimed)
  exact (id?_eq_some_iff.mp isId).2

/-- An id is told to be a duplicate at the entries that have it after the first, and there once. -/
theorem mem_raised_duplicateId {elements : List Json} {j first : Nat} {id : Text} :
    (j, .duplicateId id first) ∈ raised 1 .empty elements ↔
      isId id ∧ HasId elements j id ∧ first < j ∧ FirstWithId elements id first := by
  rw [mem_raised_iff]
  constructor
  · rintro ⟨k, element, rfl, at?, mem⟩
    obtain ⟨claimed, owned⟩ := mem_elementProblems_duplicateId.mp mem
    have formed := isId_of_mem_claims claimed
    obtain ⟨before, isFirst⟩ := (owner?_before_iff formed).mp owned
    rw [Nat.add_comm]
    exact ⟨formed, (hasId_succ_iff formed).mpr ⟨element, at?, claimed⟩, before, isFirst⟩
  · rintro ⟨formed, has, before, isFirst⟩
    cases j with
    | zero => exact absurd has (not_hasId_zero elements id)
    | succ k =>
      obtain ⟨element, at?, claimed⟩ := (hasId_succ_iff formed).mp has
      refine ⟨k, element, Nat.add_comm k 1, at?, ?_⟩
      exact mem_elementProblems_duplicateId.mpr ⟨claimed, (owner?_before_iff formed).mpr ⟨before, isFirst⟩⟩

end
end Card

namespace Cards
open Card

def quietAt (cards : Cards) (artifact : Text) (j : Nat) : Bool :=
  cards.findings.all fun f => f.locator ≠ .record artifact j

/-- The entries at which there is no finding. -/
def accepted (cards : Cards) (artifact : Text) (elements : List Json) : List Json :=
  ((elements.zipIdx 1).filter fun item => cards.quietAt artifact item.2).map Prod.fst

/-- Cards and findings make up what is known of a list of elements. -/
structure Complementary (artifact : Text) (elements : List Json) (cards : Cards) : Prop where
  records : List.Forall₂ (fun element r => Record.Spelled r element) (cards.accepted artifact elements) cards.records
  ids : (cards.records.map (·.id)).Nodup
  findings : ∃ found : List (Nat × Card.Problem),
    cards.findings = found.map (fun item => .error (.record artifact item.1) (.card item.2)) ∧
    (∀ item ∈ found, 1 ≤ item.1 ∧ item.1 ≤ elements.length) ∧
    found.Pairwise fun a b => a.1 < b.1 ∨ a.1 = b.1 ∧ a.2.rule ≠ b.2.rule
  duplicates : ∀ j id first,
    .error (.record artifact j) (.card (.duplicateId id first)) ∈ cards.findings ↔
      isId id ∧ HasId elements j id ∧ first < j ∧ FirstWithId elements id first

theorem ofJson_array (artifact : Text) {elements : List Json} (nonempty : elements ≠ []) :
    ofJson artifact (.array elements) = ⟨made 1 .empty elements,
      (raised 1 .empty elements).map fun item => .error (.record artifact item.1) (.card item.2)⟩ := by
  cases elements with
  | nil => exact absurd rfl nonempty
  | cons element elements =>
    simp only [ofJson, Json.array?, made, raised, List.map_flatMap, List.map_map]
    rfl

theorem complementary_ofJson (artifact : Text) {elements : List Json} (nonempty : elements ≠ []) :
    Complementary artifact elements (ofJson artifact (.array elements)) := by
  rw [ofJson_array artifact nonempty]
  refine ⟨?_, (fresh_made 1 .empty elements).2, ⟨_, rfl, ?_, pairwise_raised 1 .empty elements⟩, ?_⟩
  · refine forall₂_made fun j _ => ?_
    rw [quietAt, List.all_eq_true]
    constructor
    · intro quiet p mem
      simpa [Finding.error] using quiet _ (List.mem_map_of_mem mem)
    · intro none f mem
      obtain ⟨item, listed, rfl⟩ := List.mem_map.mp mem
      refine decide_eq_true fun same => none item.2 ?_
      cases same
      exact listed
  · intro item mem
    have := number_of_mem_raised mem
    omega
  · intro j id first
    rw [← mem_raised_duplicateId]
    simp [Finding.error]

/-- Every entry of a document that is a non-empty list spells a card or has a finding, and not both: the entries
    without a finding give the cards, in their order, and reading a card never fails where an entry keeps the rules.
    The cards have different ids, and an id that an earlier entry has is told at each later entry that has it. -/
theorem complementary (artifact : Text) {t : Text} {elements : List Json}
    (parsed : Json.ofText t = .ok (.array elements)) (nonempty : elements ≠ []) :
    Complementary artifact elements (ofText artifact t) ∧
      ∀ owners entry, problems owners entry = [] → ∃ r, record? entry = some r := by
  constructor
  · rw [ofText, parsed]
    exact complementary_ofJson artifact nonempty
  · intro owners entry kept
    obtain ⟨r, spelled, -⟩ := @exists_spelled owners (.object entry) kept
    exact ⟨r, record?_eq_some_iff.mpr spelled⟩

/-- A card, an entry that is none but has the id of the next two cards, and a number. -/
def sample : Text :=
  lit "[\x7b\"id\":\"a\",\"name\":\"A\",\"tagline\":\"t\",\"symbol\":\"s\"," ++
  lit "\"color\":\"#00aAfF\",\"details\":[\"d\"],\"more\":1.5\x7d," ++
  lit "\x7b\"id\":\"b_2\"\x7d, 3," ++
  lit "\x7b\"id\":\"b_2\",\"name\":\"B\",\"tagline\":\"t\",\"symbol\":\"s\"," ++
  lit "\"color\":\"#000000\",\"details\":[\"d\"]\x7d]"

theorem complementary_sample : ∃ elements, Json.ofText sample = .ok (.array elements) ∧ elements ≠ [] ∧
    Complementary (lit "cards") elements (ofText (lit "cards") sample) ∧
    .error (.record (lit "cards") 4) (.card (.duplicateId (lit "b_2") 2)) ∈ (ofText (lit "cards") sample).findings := by
  have read : (((Json.ofText sample).toOption.bind Json.array?).any fun elements =>
      HasId elements 4 (lit "b_2") && FirstWithId elements (lit "b_2") 2 && !elements.isEmpty) = true := by
    decide +kernel
  obtain ⟨elements, found, checked⟩ := Option.any_eq_true _ _ |>.mp read
  simp only [Bool.and_eq_true, decide_eq_true_eq, Bool.not_eq_true', List.isEmpty_eq_false_iff] at checked
  obtain ⟨⟨has, first⟩, nonempty⟩ := checked
  cases parsed : Json.ofText sample with
  | error fault =>
    rw [parsed] at found
    cases found
  | ok document =>
    rw [parsed] at found
    obtain rfl := Json.array?_eq_some_iff.mp found
    have all := (complementary (lit "cards") parsed nonempty).1
    exact ⟨elements, rfl, nonempty, all, (all.duplicates 4 _ 2).mpr ⟨by decide, has, by decide, first⟩⟩

end Cards
end PluginAudit
