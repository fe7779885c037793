import PluginAudit.Proofs.Code.Strings

/-!
# What a literal stands for

A text is one literal if, white space around it aside, it consists of plain characters and escapes between two
quotes, and what it stands for is read off them (`single?_spells`). Encoding and decoding undo each other
(`encode_inverse`), unless a literal has an unknown escape or writes a line feed or a tab as it is.
-/
namespace PluginAudit

namespace Text

variable {t : Text} {start stop : Nat}

theorem blank_iff_countP : t.blank ↔ t.countP (!isBlank ·) = 0 := by
  simp [blank, List.countP_eq_zero]

/-- What trimming leaves of a text stands at one place of it only. -/
theorem slice_trim_iff (visible : t.trim ≠ []) :
    t.Slice start stop t.trim ↔ start = byteSize (t.takeWhile isBlank) ∧ stop = start + byteSize t.trim := by
  obtain ⟨gap, white, kept⟩ := t.exists_trim_append_blank
  have whole : t = t.takeWhile isBlank ++ t.trim ++ gap := by
    rw [List.append_assoc, ← kept]
    exact List.takeWhile_append_dropWhile.symm
  constructor
  · intro slice
    refine ⟨?_, slice.stop_eq⟩
    obtain ⟨before, after, split, rfl, -⟩ := slice
    -- all that is not white space stands in the part, so what is before it is white space
    have white' : before.blank := by
      have leading : blank (t.takeWhile isBlank) := List.all_takeWhile
      have count := congrArg (List.countP (!isBlank ·)) (split.symm.trans whole)
      rw [blank_iff_countP] at leading white ⊢
      simp only [List.countP_append] at count
      omega
    have first : (t.trim ++ after).takeWhile isBlank = [] := by
      cases eq : t.trim with
      | nil => exact absurd eq visible
      | cons c kept =>
        have solid : isBlank c = false := not_isBlank_of_mem_head?_trim (by rw [eq]; rfl)
        simp [solid]
    conv => rhs; rw [split, List.append_assoc]
    rw [List.takeWhile_append_of_pos (fun c mem => isBlank_of_mem white' mem), first, List.append_nil]
  · rintro ⟨rfl, rfl⟩
    exact ⟨_, gap, whole, rfl, byteSize_append _ _⟩

end Text

namespace Code

/-- What the character after a backslash stands for, where that is known. -/
inductive Escape : Char → Char → Prop
  | backslash : Escape '\\' '\\'
  | quote : Escape '"' '"'
  | lineFeed : Escape 'n' '\n'
  | tab : Escape 't' '\t'

/-- What is written between two quotes stands for a value, and has the given characters after backslashes
    that are not known. Such a backslash stands for itself. -/
inductive Spells : Text → Text → List Char → Prop
  | nil : Spells [] [] []
  | plain {c : Char} {body value : Text} {unknown : List Char} (notQuote : c ≠ '"') (notBackslash : c ≠ '\\')
      (rest : Spells body value unknown) : Spells (c :: body) (c :: value) unknown
  | known {c d : Char} {body value : Text} {unknown : List Char} (escape : Escape c d)
      (rest : Spells body value unknown) : Spells ('\\' :: c :: body) (d :: value) unknown
  | other {c : Char} {body value : Text} {unknown : List Char} (none : ∀ d, ¬ Escape c d)
      (rest : Spells body value unknown) : Spells ('\\' :: c :: body) ('\\' :: c :: value) (c :: unknown)

variable {t body value : Text} {unknown : List Char} {items items' : List Item} {l : Literal} {c d : Char}

theorem Escape.value_eq (escape : Escape c d) :
    (Item.escaped c).value = [d] ∧ (Item.escaped c).unrecognized? = none ∧ Item.ofChar d = .escaped c := by
  cases escape <;> exact ⟨rfl, rfl, rfl⟩

theorem value_of_no_escape (none : ∀ d, ¬ Escape c d) :
    (Item.escaped c).value = ['\\', c] ∧ (Item.escaped c).unrecognized? = some c := by
  have backslash : c ≠ '\\' := by
    rintro rfl
    exact none _ .backslash
  have quote : c ≠ '"' := by
    rintro rfl
    exact none _ .quote
  have lineFeed : c ≠ 'n' := by
    rintro rfl
    exact none _ .lineFeed
  have tab : c ≠ 't' := by
    rintro rfl
    exact none _ .tab
  constructor
  · unfold Item.value
    split <;> simp_all
  · simp [Item.unrecognized?, backslash, quote, lineFeed, tab]

theorem spells_items (proper : ∀ item ∈ items, item.Proper) :
    Spells (items.flatMap Item.spelling) (items.flatMap Item.value) (items.filterMap Item.unrecognized?) := by
  induction items with
  | nil => exact .nil
  | cons item items ih =>
    obtain ⟨first, others⟩ := List.forall_mem_cons.mp proper
    have rest := ih others
    rw [List.flatMap_cons, List.flatMap_cons, List.filterMap_cons]
    cases item with
    | plain c =>
      obtain ⟨notQuote, notBackslash⟩ := first
      exact .plain notQuote notBackslash rest
    | escaped c =>
      by_cases escapes : ∃ d, Escape c d
      · obtain ⟨d, escape⟩ := escapes
        obtain ⟨value, known, -⟩ := escape.value_eq
        rw [value, known]
        exact .known escape rest
      · have none := not_exists.mp escapes
        obtain ⟨value, unknown⟩ := value_of_no_escape none
        rw [value, unknown]
        exact .other none rest

/-- What can be written between two quotes is a list of proper items, and stands for what they stand for. -/
theorem exists_items_of_spells (spells : Spells body value unknown) :
    ∃ items : List Item, (∀ item ∈ items, item.Proper) ∧ body = items.flatMap Item.spelling ∧
      value = items.flatMap Item.value ∧ unknown = items.filterMap Item.unrecognized? := by
  induction spells with
  | nil => exact ⟨[], by simp, rfl, rfl, rfl⟩
  | @plain c _ _ _ notQuote notBackslash _ ih =>
    obtain ⟨items, proper, rfl, rfl, rfl⟩ := ih
    exact ⟨.plain c :: items, List.forall_mem_cons.mpr ⟨⟨notQuote, notBackslash⟩, proper⟩, rfl, rfl, rfl⟩
  | @known c _ _ _ _ escape _ ih =>
    obtain ⟨items, proper, rfl, rfl, rfl⟩ := ih
    obtain ⟨value, known, -⟩ := escape.value_eq
    refine ⟨.escaped c :: items, List.forall_mem_cons.mpr ⟨trivial, proper⟩, rfl, ?_, ?_⟩
    · rw [List.flatMap_cons, value]
      rfl
    · rw [List.filterMap_cons, known]
  | @other c _ _ _ none _ ih =>
    obtain ⟨items, proper, rfl, rfl, rfl⟩ := ih
    obtain ⟨value, unknown⟩ := value_of_no_escape none
    refine ⟨.escaped c :: items, List.forall_mem_cons.mpr ⟨trivial, proper⟩, rfl, ?_, ?_⟩
    · rw [List.flatMap_cons, value]
      rfl
    · rw [List.filterMap_cons, unknown]

theorem single?_eq_some_iff : single? t = some l ↔
    ∃ items, (∀ item ∈ items, item.Proper) ∧ t.trim = quoted items ∧
      l = ⟨items, Text.byteSize (t.takeWhile isBlank), true⟩ := by
  constructor
  · intro single
    unfold single? at single
    split at single
    next body trimmed =>
      split at single
      next items read =>
        refine ⟨items, proper_of_readItems read, ?_, (Option.some.inj single).symm⟩
        rw [trimmed, eq_quoted_of_readItems read, List.append_nil]
      next => cases single
    next => cases single
  · rintro ⟨items, proper, trimmed, rfl⟩
    exact single?_of_trim proper trimmed

theorem literals_quoted (proper : ∀ item ∈ items, item.Proper) : literals (quoted items) = [⟨items, 0, true⟩] := by
  have read := readItems_spelling proper []
  rw [literals, quoted, literalsFrom_terminated read, literalsFrom]

/-- A text is read as one literal exactly if its literals are one, which is complete and has nothing but white
    space on either side. -/
theorem single?_iff_literals : single? t = some l ↔
    ∃ found, literals t.trim = [found] ∧ found.terminated ∧ found.start = 0 ∧
      found.stop = t.trim.byteSize ∧ l = found.shift (Text.byteSize (t.takeWhile isBlank)) := by
  rw [single?_eq_some_iff]
  constructor
  · rintro ⟨items, proper, trimmed, rfl⟩
    refine ⟨⟨items, 0, true⟩, ?_, rfl, rfl, ?_, rfl⟩
    · rw [trimmed, literals_quoted proper]
    · rw [trimmed, Literal.stop, spelling_terminated, Nat.zero_add]
  · rintro ⟨found, only, terminated, first, last, rfl⟩
    have mem : found ∈ literals t.trim := by simp [only]
    obtain ⟨before, after, -, whole, place, -, read⟩ := exists_read_of_mem_literalsFrom mem 0
    -- nothing is before the literal, and nothing after it
    have sizes : before.byteSize = 0 ∧ after.byteSize = 0 := by
      rw [Literal.stop, whole, Text.byteSize_append, Text.byteSize_append] at last
      omega
    obtain rfl := Text.eq_nil_of_byteSize_eq_zero sizes.1
    obtain rfl := Text.eq_nil_of_byteSize_eq_zero sizes.2
    obtain ⟨items, start, ended⟩ := found
    obtain rfl : ended = true := terminated
    obtain rfl : start = 0 := first
    exact ⟨items, read.proper rfl, by simpa [spelling_terminated] using whole, rfl⟩

/-- A text is read as one literal exactly if, trimmed, it spells a value between two quotes. This value, the
    unknown escapes and the place of the trimmed text are those of the literal. It is so exactly if the
    literals of the trimmed text are one complete literal from its start to its end. -/
theorem single?_spells (t : Text) :
    (∀ value unknown start stop,
      (∃ l, single? t = some l ∧ l.terminated ∧ l.value = value ∧ l.unrecognized = unknown ∧ l.start = start ∧
        l.stop = stop) ↔
      ∃ body, t.trim = '"' :: (body ++ ['"']) ∧ Spells body value unknown ∧ t.Slice start stop t.trim) ∧
    ∀ l, single? t = some l ↔
      ∃ found, literals t.trim = [found] ∧ found.terminated ∧ found.start = 0 ∧ found.stop = t.trim.byteSize ∧
        l = found.shift (Text.byteSize (t.takeWhile isBlank)) := by
  refine ⟨fun value unknown start stop => ?_, fun l => single?_iff_literals⟩
  constructor
  · rintro ⟨l, single, -, rfl, rfl, rfl, rfl⟩
    obtain ⟨items, proper, trimmed, rfl⟩ := single?_eq_some_iff.mp single
    have visible : t.trim ≠ [] := by simp [trimmed, quoted]
    refine ⟨items.flatMap Item.spelling, trimmed, spells_items proper, (Text.slice_trim_iff visible).mpr ⟨rfl, ?_⟩⟩
    rw [trimmed, Literal.stop, spelling_terminated]
  · rintro ⟨body, trimmed, spells, slice⟩
    obtain ⟨items, proper, rfl, rfl, rfl⟩ := exists_items_of_spells spells
    have visible : t.trim ≠ [] := by simp [trimmed]
    obtain ⟨rfl, rfl⟩ := (Text.slice_trim_iff visible).mp slice
    refine ⟨_, single?_of_trim proper trimmed, rfl, rfl, rfl, rfl, ?_⟩
    rw [trimmed, Literal.stop, spelling_terminated, quoted]

theorem quoted_inj (proper : ∀ item ∈ items, item.Proper) (proper' : ∀ item ∈ items', item.Proper)
    (same : quoted items = quoted items') : items = items' := by
  have one := single?_quoted proper
  rw [same, single?_quoted proper'] at one
  exact congrArg Literal.items (Option.some.inj one).symm

/-- A line feed and a tab do not stand in an encoding, as they are written with other characters. -/
theorem not_mem_encode (escape : Escape c d) (differ : c ≠ d) : d ∉ encode value := by
  have notQuote : d ≠ '"' := by
    rintro rfl
    cases escape
    exact differ rfl
  intro mem
  rw [encode_eq_quoted, quoted, List.mem_cons, List.mem_append, List.mem_singleton] at mem
  rcases mem with quote | inner | quote
  · exact notQuote quote
  · obtain ⟨item, written, there⟩ := List.mem_flatMap.mp inner
    obtain ⟨a, -, rfl⟩ := List.mem_map.mp written
    revert there
    unfold Item.ofChar
    cases escape with
    | backslash => exact absurd rfl differ
    | quote => exact absurd rfl differ
    | lineFeed => split_ifs <;> simp_all [Item.spelling, eq_comm]
    | tab => split_ifs <;> simp_all [Item.spelling, eq_comm]
  · exact notQuote quote

/-- Writing the value of an item gives the item back, unless its escape is not known or it writes a line feed
    or a tab as it is. -/
theorem map_ofChar_value {item : Item} (proper : item.Proper) (known : item.unrecognized? = none)
    (lineFeed : '\n' ∉ item.spelling) (tab : '\t' ∉ item.spelling) : item.value.map Item.ofChar = [item] := by
  cases item with
  | plain c =>
    obtain ⟨notQuote, notBackslash⟩ := proper
    have notLineFeed : c ≠ '\n' := by
      rintro rfl
      exact lineFeed (List.mem_singleton_self _)
    have notTab : c ≠ '\t' := by
      rintro rfl
      exact tab (List.mem_singleton_self _)
    simp [Item.value, Item.ofChar, notQuote, notBackslash, notLineFeed, notTab]
  | escaped c =>
    by_cases escapes : ∃ d, Escape c d
    · obtain ⟨d, escape⟩ := escapes
      obtain ⟨value, -, written⟩ := escape.value_eq
      rw [value, List.map_singleton, written]
    · rw [(value_of_no_escape (not_exists.mp escapes)).2] at known
      cases known

theorem encode_value_eq_iff (proper : ∀ item ∈ items, item.Proper) :
    encode (items.flatMap Item.value) = quoted items ↔
      items.filterMap Item.unrecognized? = [] ∧ '\n' ∉ quoted items ∧ '\t' ∉ quoted items := by
  constructor
  · intro same
    refine ⟨?_, ?_, ?_⟩
    · have written := quoted_inj Item.proper_of_mem_map_ofChar proper same
      rw [← written, filterMap_unrecognized?_map_ofChar]
    · rw [← same]
      exact not_mem_encode .lineFeed (by decide)
    · rw [← same]
      exact not_mem_encode .tab (by decide)
  · rintro ⟨known, lineFeed, tab⟩
    have inner : ∀ c : Char, c ∉ quoted items → ∀ item ∈ items, c ∉ item.spelling := by
      intro c free item mem there
      refine free (List.mem_cons_of_mem _ (List.mem_append_left _ ?_))
      exact List.mem_flatMap.mpr ⟨item, mem, there⟩
    have each : ∀ item ∈ items, item.value.map Item.ofChar = [item] := fun item mem =>
      map_ofChar_value (proper item mem) (List.filterMap_eq_nil_iff.mp known item mem) (inner _ lineFeed item mem)
        (inner _ tab item mem)
    rw [encode_eq_quoted, List.map_flatMap, List.flatMap_congr each]
    simp

theorem exists_single?_encode (value : Text) (before after : Gap) :
    ∃ l, single? (before.text ++ encode value ++ after.text) = some l ∧ l.value = value ∧ l.unrecognized = [] ∧
      l.terminated ∧ l.start = before.text.byteSize ∧ l.stop = (before.text ++ encode value).byteSize := by
  have trimmed : (before.text ++ encode value ++ after.text).trim = encode value := by
    rw [Text.trim_append_blank after.white, Text.trim_blank_append before.white, trim_encode]
  have leading : (before.text ++ encode value ++ after.text).takeWhile isBlank = before.text := by
    rw [List.append_assoc, List.takeWhile_append_of_pos fun c mem => Text.isBlank_of_mem before.white mem,
      encode_eq_quoted, takeWhile_quoted, List.append_nil]
  have single := single?_of_trim Item.proper_of_mem_map_ofChar trimmed
  rw [leading] at single
  refine ⟨_, single, flatMap_value_map_ofChar value, filterMap_unrecognized?_map_ofChar value, rfl, rfl, ?_⟩
  rw [Literal.stop, Text.byteSize_append, spelling_terminated, encode_eq_quoted]

/-- A value is read back from its encoding, whatever white space is around it. The value of a literal is encoded
    as the literal is written exactly if it has no unknown escape and no line feed or tab as it is, and read back
    from its encoding in any case. -/
theorem encode_inverse :
    (∀ (value : Text) (before after : Gap), ∃ l, single? (before.text ++ encode value ++ after.text) = some l ∧
      l.value = value ∧ l.unrecognized = [] ∧ l.terminated ∧ l.start = before.text.byteSize ∧
      l.stop = (before.text ++ encode value).byteSize) ∧
    ∀ t l, single? t = some l →
      (encode l.value = t.trim ↔ l.unrecognized = [] ∧ '\n' ∉ t.trim ∧ '\t' ∉ t.trim) ∧
      ∃ l', single? (encode l.value) = some l' ∧ l'.value = l.value := by
  refine ⟨exists_single?_encode, ?_⟩
  intro t l single
  constructor
  · obtain ⟨items, proper, trimmed, rfl⟩ := single?_eq_some_iff.mp single
    rw [trimmed]
    exact encode_value_eq_iff proper
  · obtain ⟨l', found, same, -⟩ := exists_single?_encode l.value .none .none
    exact ⟨l', by simpa using found, same⟩

/-- The literal `"\\\q\n"` ends in an unknown escape and a known one. -/
theorem encode_inverse_unknown :
    single? (lit " \"\\\\\\q\\n\"") = some ⟨[.escaped '\\', .escaped 'q', .escaped 'n'], 1, true⟩ ∧
    encode (lit "\\\\q\n") ≠ lit "\"\\\\\\q\\n\"" ∧
    ∃ l, single? (encode (lit "\\\\q\n")) = some l ∧ l.value = lit "\\\\q\n" := by
  have found : single? (lit " \"\\\\\\q\\n\"") =
      some ⟨[.escaped '\\', .escaped 'q', .escaped 'n'], 1, true⟩ := by decide
  obtain ⟨same, back⟩ := encode_inverse.2 _ _ found
  refine ⟨found, ?_, back⟩
  intro equal
  have known := (same.mp equal).1
  revert known
  decide

end Code
end PluginAudit
