import PluginAudit.Proofs.Code.Balanced
import PluginAudit.Proofs.Text.Trim

/-!
# Written literals

The items of a complete literal are read back (`readItems_spelling`), an encoded value is an argument that has this
value and no unknown escapes (`value_encode`, `argument_encode`, `unrecognized_encode`), and the literals of a text
are those between its other parts (`literalItems_append`, `literalItems_quoted`).
-/
namespace PluginAudit.Code

@[simp] theorem Item.value_ofChar (c : Char) : (Item.ofChar c).value = [c] := by
  unfold Item.ofChar
  split_ifs with backslash quote newline tab
  · rw [backslash]; rfl
  · rw [quote]; rfl
  · rw [newline]; rfl
  · rw [tab]; rfl
  · rfl

@[simp] theorem Item.unrecognized?_ofChar (c : Char) : (Item.ofChar c).unrecognized? = none := by
  unfold Item.ofChar
  split_ifs <;> rfl

theorem Item.proper_ofChar (c : Char) : (Item.ofChar c).Proper := by
  unfold Item.ofChar
  split_ifs with backslash quote newline tab
  · trivial
  · trivial
  · trivial
  · trivial
  · exact ⟨quote, backslash⟩

theorem Item.proper_of_mem_map_ofChar {value : Text} : ∀ item ∈ value.map Item.ofChar, item.Proper := by
  intro item mem
  obtain ⟨c, -, rfl⟩ := List.mem_map.mp mem
  exact Item.proper_ofChar c

theorem flatMap_value_map_ofChar (value : Text) : (value.map Item.ofChar).flatMap Item.value = value := by
  induction value with
  | nil => rfl
  | cons c value ih => rw [List.map_cons, List.flatMap_cons, ih, Item.value_ofChar]; rfl

theorem filterMap_unrecognized?_map_ofChar (value : Text) :
    (value.map Item.ofChar).filterMap Item.unrecognized? = [] := by
  rw [List.filterMap_map]
  exact List.filterMap_eq_nil_iff.mpr fun c _ => Item.unrecognized?_ofChar c

theorem encode_eq_quoted (value : Text) : encode value = quoted (value.map Item.ofChar) := rfl

/-- The items of a complete literal are read back, up to its closing quote. -/
theorem readItems_spelling {items : List Item} (proper : ∀ item ∈ items, item.Proper) (after : Text) :
    readItems (items.flatMap Item.spelling ++ '"' :: after) = (items, some after) := by
  induction items with
  | nil => rfl
  | cons item items ih =>
    have rest := ih fun other mem => proper other (by simp [mem])
    cases item with
    | plain c =>
      obtain ⟨notQuote, notBackslash⟩ := proper (.plain c) (by simp)
      simp [Item.spelling, readItems, notBackslash, rest]
    | escaped c => simp [Item.spelling, readItems, rest]

theorem leading?_quoted {items : List Item} (proper : ∀ item ∈ items, item.Proper) (after : Text) :
    leading? (quoted items ++ after) = some ⟨items, 0, true⟩ := by
  have read := readItems_spelling proper after
  simp [quoted, leading?, read]

@[simp] theorem isBlank_quote : isBlank '"' = false := by decide

theorem quote_not_mem_of_blank {gap : Text} (white : gap.blank) : '"' ∉ gap := by
  intro mem
  have quote := Text.isBlank_of_mem white mem
  rw [isBlank_quote] at quote
  cases quote

theorem getLast?_quoted (items : List Item) : (quoted items).getLast? = some '"' := by
  rw [quoted, ← List.cons_append, List.getLast?_concat]

theorem trim_around_quoted (before : Text) (items : List Item) (after : Text) :
    (before ++ quoted items ++ after).trim = before.trimStart ++ quoted items ++ after.trimEnd := by
  have first : ∀ c ∈ (quoted items ++ after).head?, isBlank c = false := by
    rintro c ⟨⟩
    exact isBlank_quote
  have last : ∀ c ∈ (before.trimStart ++ quoted items).getLast?, isBlank c = false := by
    rw [List.getLast?_append, getLast?_quoted]
    rintro c ⟨⟩
    exact isBlank_quote
  rw [Text.trim, List.append_assoc, Text.trimStart_append before first, ← List.append_assoc,
    Text.trimEnd_append last]

theorem trim_quoted (items : List Item) : (quoted items).trim = quoted items := by
  simpa [Text.trimStart, Text.trimEnd] using trim_around_quoted [] items []

theorem takeWhile_quoted (items : List Item) (rest : Text) : (quoted items ++ rest).takeWhile isBlank = [] := by
  simp [quoted]

/-- A text that is a complete literal, white space around it aside, is read as this literal. -/
theorem single?_of_trim {t : Text} {items : List Item} (proper : ∀ item ∈ items, item.Proper)
    (trimmed : t.trim = quoted items) : single? t = some ⟨items, Text.byteSize (t.takeWhile isBlank), true⟩ := by
  have read := readItems_spelling proper []
  rw [single?, trimmed]
  simp [quoted, read]

theorem single?_quoted {items : List Item} (proper : ∀ item ∈ items, item.Proper) :
    single? (quoted items) = some ⟨items, 0, true⟩ := by
  have none := takeWhile_quoted items []
  rw [List.append_nil] at none
  rw [single?_of_trim proper (trim_quoted items), none, Text.byteSize_nil]

theorem value_encode (value : Text) : (single? (encode value)).map Literal.value = some value := by
  rw [encode_eq_quoted, single?_quoted Item.proper_of_mem_map_ofChar, Option.map_some, Literal.value,
    flatMap_value_map_ofChar]

theorem unrecognized_encode (value : Text) :
    (single? (encode value)).toList.flatMap Literal.unrecognized = [] := by
  rw [encode_eq_quoted, single?_quoted Item.proper_of_mem_map_ofChar]
  simp [Literal.unrecognized]

theorem argument_encode (value : Text) : Argument (encode value) := .quoted Item.proper_of_mem_map_ofChar

theorem trim_encode (value : Text) : (encode value).trim = encode value := trim_quoted _

theorem literalsFrom_unterminated {t : Text} {items : List Item} (read : readItems t = (items, none))
    (offset : Nat) : literalsFrom offset ('"' :: t) = [⟨items, offset, false⟩] := by
  rw [literalsFrom, if_pos rfl]
  split
  next items' read' =>
    obtain ⟨rfl, -⟩ := Prod.mk.inj (read.symm.trans read')
    rfl
  next items' after' read' => simp [read] at read'

theorem literalsFrom_terminated {t after : Text} {items : List Item} (read : readItems t = (items, some after))
    (offset : Nat) : literalsFrom offset ('"' :: t) =
      ⟨items, offset, true⟩ :: literalsFrom (Literal.stop ⟨items, offset, true⟩) after := by
  rw [literalsFrom, if_pos rfl]
  split
  next items' read' => simp [read] at read'
  next items' after' read' =>
    obtain ⟨rfl, eq⟩ := Prod.mk.inj (read.symm.trans read')
    obtain rfl := Option.some.inj eq
    rfl

theorem literalsFrom_other {c : Char} (notQuote : c ≠ '"') (t : Text) (offset : Nat) :
    literalsFrom offset (c :: t) = literalsFrom (offset + c.utf8Size) t := by
  rw [literalsFrom, if_neg notQuote]

/-- The items of each literal of a text, in order. -/
def literalItems (t : Text) : List (List Item) := (literals t).map Literal.items

/-- Where a text stands makes no difference to the items of its literals. -/
theorem map_items_literalsFrom (offset : Nat) (t : Text) :
    (literalsFrom offset t).map Literal.items = literalItems t := by
  unfold literalItems literals
  generalize 0 = offset'
  fun_induction literalsFrom offset t generalizing offset' with
  | case1 => simp [literalsFrom]
  | case2 offset t items read => rw [literalsFrom_unterminated read]; rfl
  | case3 offset t items after read l _ ih => rw [literalsFrom_terminated read, List.map_cons, List.map_cons, ih]
  | case4 offset c t notQuote ih => rw [literalsFrom_other notQuote, ih]

theorem literalItems_append {t : Text} (free : '"' ∉ t) (rest : Text) :
    literalItems (t ++ rest) = literalItems rest := by
  induction t with
  | nil => rfl
  | cons c t ih =>
    obtain ⟨notQuote, later⟩ := not_or.mp (fun mem => free (List.mem_cons.mpr mem))
    rw [List.cons_append, literalItems, literals, literalsFrom_other (Ne.symm notQuote),
      map_items_literalsFrom, ih later]

theorem literalItems_eq_nil {t : Text} (free : '"' ∉ t) : literalItems t = [] := by
  simpa [literalItems, literals, literalsFrom] using literalItems_append free []

/-- A complete literal in a text is read, and what follows it is read after it. -/
theorem literalItems_quoted {items : List Item} (proper : ∀ item ∈ items, item.Proper) (rest : Text) :
    literalItems (quoted items ++ rest) = items :: literalItems rest := by
  have read := readItems_spelling proper rest
  have written : quoted items ++ rest = '"' :: (items.flatMap Item.spelling ++ '"' :: rest) := by simp [quoted]
  rw [written, literalItems, literals, literalsFrom_terminated read, List.map_cons, map_items_literalsFrom]

theorem literalValues_eq (t : Text) : literalValues t = (literalItems t).map (·.flatMap Item.value) := by
  rw [literalValues, literalItems, List.map_map]
  rfl

theorem flatMap_unrecognized_literals (t : Text) :
    (literals t).flatMap Literal.unrecognized = (literalItems t).flatMap (·.filterMap Item.unrecognized?) := by
  rw [literalItems, List.flatMap_map]
  rfl

end PluginAudit.Code
