import PluginAudit.Proofs.Code.WrittenCall
import PluginAudit.Proofs.Command.Validity

/-!
# Written catalogs

Records are written as the calls that declare them. Each argument is read back as the field it was written from
(`declares_written`), the calls are found whatever the fields hold (`argumentLists_written`), and so the check of a
written catalog gives back the records, without findings (`ofText?_written`).
-/
namespace PluginAudit.Command
open Declaration

/-- How the literals of a list are written, with white space around each. -/
def written (before after : Nat → Gap) (values : List Text) : Text :=
  lit "List.of(" ++ [','].intercalate (spaced before after (values.map Code.encode)) ++ [')']

/-- The white space of a written declaration: after `new`, after the name of the type, around each
    argument, and around each literal of the two lists. -/
structure Spacing where
  afterNew : Gap
  apart : afterNew.text ≠ []
  beforeArguments : Gap
  before : Nat → Gap
  after : Nat → Gap
  beforeAlias : Nat → Gap
  afterAlias : Nat → Gap
  beforeExample : Nat → Gap
  afterExample : Nat → Gap

/-- The nine arguments that declare a record. -/
def Record.arguments (r : Record) (spacing : Spacing) : List Text :=
  [Code.encode r.command, Code.encode r.displayName, Code.encode r.shortDesc, Code.encode r.fullDesc, r.category,
    written spacing.beforeAlias spacing.afterAlias r.aliases,
    written spacing.beforeExample spacing.afterExample r.examples,
    Code.encode r.permission, if r.requiresNation then lit "true" else lit "false"]

/-- A record that is written as a declaration, with the text before it. -/
structure Entry where
  filler : Text
  spacing : Spacing
  record : Record

def Entry.text (e : Entry) : Text :=
  e.filler ++ lit "new" ++ e.spacing.afterNew.text ++ lit "CommandInfo" ++ e.spacing.beforeArguments.text ++
    ['('] ++ [','].intercalate (spaced e.spacing.before e.spacing.after (e.record.arguments e.spacing)) ++ [')']

/-- The literals of encoded values with white space and commas between them are the values. -/
theorem literalItems_intercalate (before after : Nat → Gap) (values : List Text) {rest : Text} (free : '"' ∉ rest) :
    Code.literalItems ([','].intercalate (spaced before after (values.map Code.encode)) ++ rest) =
      values.map (·.map Code.Item.ofChar) := by
  have white : ∀ gap : Gap, '"' ∉ gap.text := fun gap => Code.quote_not_mem_of_blank gap.white
  induction values generalizing before after with
  | nil => exact Code.literalItems_eq_nil free
  | cons value values ih =>
    have first : ∀ rest, Code.literalItems ((before 0).text ++ Code.encode value ++ (after 0).text ++ rest) =
        value.map Code.Item.ofChar :: Code.literalItems rest := by
      intro rest
      rw [List.append_assoc, List.append_assoc, Code.literalItems_append (white _), Code.encode_eq_quoted,
        Code.literalItems_quoted Code.Item.proper_of_mem_map_ofChar, Code.literalItems_append (white _)]
    have later := ih (before ∘ Nat.succ) (after ∘ Nat.succ)
    rw [List.map_cons, spaced_cons]
    cases values with
    | nil =>
      rw [List.map_nil, show spaced (before ∘ Nat.succ) (after ∘ Nat.succ) [] = [] from rfl, List.intercalate_singleton,
        first, Code.literalItems_eq_nil free]
      rfl
    | cons value' values =>
      rw [List.map_cons, spaced_cons] at later ⊢
      rw [List.intercalate_cons_cons, List.append_assoc, List.append_assoc, first,
        Code.literalItems_append (by decide), later]
      rfl

theorem literalItems_written (before after : Nat → Gap) (values : List Text) :
    Code.literalItems (written before after values) = values.map (·.map Code.Item.ofChar) := by
  unfold written
  rw [List.append_assoc, Code.literalItems_append (by decide)]
  exact literalItems_intercalate before after values (by decide)

theorem literalValues_written (before after : Nat → Gap) (values : List Text) :
    Code.literalValues (written before after values) = values := by
  rw [Code.literalValues_eq, literalItems_written, List.map_map]
  exact List.map_id'' Code.flatMap_value_map_ofChar values

theorem argument_written (before after : Nat → Gap) (values : List Text) :
    Code.Argument (written before after values) := by
  have inner : Code.Balanced ([','].intercalate (spaced before after (values.map Code.encode))) := by
    refine .intercalate fun t mem => ?_
    obtain ⟨literal, encoded, i, rfl⟩ := mem_spaced mem
    obtain ⟨value, -, rfl⟩ := List.mem_map.mp encoded
    exact (Code.Argument.spaced (before i).white (Code.argument_encode value) (after i).white).balanced
  have plain : Code.Undelimited (lit "List.of") := by decide
  have word := plain.argument
  have group := word.append (.group inner .nil)
  have opening : lit "List.of(" = lit "List.of" ++ ['('] := rfl
  unfold written
  rw [opening]
  simpa using group

theorem trim_written (before after : Nat → Gap) (values : List Text) :
    (written before after values).trim = written before after values := by
  unfold written
  refine Text.trim_eq_self ?_ ?_
  · rintro c ⟨⟩
    decide
  · rw [List.getLast?_concat]
    rintro c ⟨⟩
    decide

/-- A text without delimiters and white space. -/
def Plain (t : Text) : Prop := ∀ c ∈ t, Code.isDelimiter c = false ∧ isBlank c = false

instance (t : Text) : Decidable (Plain t) :=
  decidable_of_iff (t.all fun c => !Code.isDelimiter c && !isBlank c) (by simp [Plain])

theorem Plain.argument {t : Text} (plain : Plain t) : Code.Argument t ∧ t.trim = t := by
  have undelimited : Code.Undelimited t := fun c mem => (plain c mem).1
  exact ⟨undelimited.argument, Text.trim_of_no_blank fun c mem => (plain c mem).2⟩

theorem plain_of_category {token : Text}
    (category : ∃ name, token = Shape.standard.categoryStart ++ name ∧ Constant name) : Plain token := by
  obtain ⟨name, rfl, constant⟩ := category
  have start : Plain Shape.standard.categoryStart := by decide
  have word : ∀ c, isAlphanumeric c ∨ c = '_' → Code.isDelimiter c = false ∧ isBlank c = false := by
    rintro c (alphanumeric | rfl)
    · constructor
      · by_contra delimiter
        simp only [Code.isDelimiter, Bool.not_eq_false, Bool.or_eq_true, beq_iff_eq] at delimiter
        rcases delimiter with ((rfl | rfl) | rfl) | rfl <;> revert alphanumeric <;> decide
      · by_contra white
        rw [Bool.not_eq_false] at white
        simp [Text.not_isAlphanumeric_of_isBlank white] at alphanumeric
    · decide
  intro c mem
  rcases List.mem_append.mp mem with mem | mem
  · exact start c mem
  · obtain ⟨first, rest, rfl, letter, others⟩ := constant
    rcases List.mem_cons.mp mem with rfl | mem
    · exact word c (letter.imp_left fun letter => by simp [isAlphanumeric, letter])
    · exact word c (others c mem)

/-- Each written argument is an argument by the grammar, without white space around it. -/
theorem argument_of_mem_arguments {r : Record} (valid : r.Valid .standard) (spacing : Spacing) :
    ∀ t ∈ r.arguments spacing, Code.Argument t ∧ t.trim = t := by
  have encoded : ∀ value, Code.Argument (Code.encode value) ∧ (Code.encode value).trim = Code.encode value :=
    fun value => ⟨Code.argument_encode value, Code.trim_encode _⟩
  have listed : ∀ before after values,
      Code.Argument (written before after values) ∧ (written before after values).trim = written before after values :=
    fun before after values => ⟨argument_written before after values, trim_written before after values⟩
  have flag : ∀ b : Bool, Plain (if b then lit "true" else lit "false") := by decide
  simp only [Record.arguments, List.forall_mem_cons]
  exact ⟨encoded _, encoded _, encoded _, encoded _, (plain_of_category valid.category).argument, listed _ _ _,
    listed _ _ _, encoded _, (flag _).argument, by simp⟩

/-- The nine arguments declare the record that they were written from. -/
theorem declares_written (r : Record) (spacing : Spacing) : Declares (r.arguments spacing) r := by
  refine ⟨_, _, _, _, _, _, _, _, rfl, Code.value_encode _, Code.value_encode _, Code.value_encode _,
    Code.value_encode _, literalValues_written _ _ _, literalValues_written _ _ _, Code.value_encode _, ?_⟩
  cases r.requiresNation <;> rfl

def Entry.call (e : Entry) : Code.WrittenCall where
  filler := e.filler
  afterNew := e.spacing.afterNew.text
  gap := e.spacing.beforeArguments.text
  inner := [','].intercalate (spaced e.spacing.before e.spacing.after (e.record.arguments e.spacing))

/-- A text that may stand before a declaration. -/
structure Filler (t : Text) : Prop where
  free : ¬ lit "CommandInfo" <:+: t
  apart : Code.endsInIdentifier t.reverse = false

theorem text_call (e : Entry) : e.text = e.call.text (.creation (lit "CommandInfo")) := by
  simp [Entry.text, Entry.call, Code.WrittenCall.text, Code.WrittenCall.lead, Code.WrittenCall.tail, Code.Marker.name]

theorem balanced_call {e : Entry} (valid : e.record.Valid .standard) : Code.Balanced e.call.inner := by
  refine .intercalate fun t mem => ?_
  obtain ⟨argument, written, i, rfl⟩ := mem_spaced mem
  have := (argument_of_mem_arguments valid e.spacing argument written).1
  exact (this.spaced (e.spacing.before i).white (e.spacing.after i).white).balanced

/-- The arguments of a written declaration are those that were written. -/
theorem arguments_call {e : Entry} (valid : e.record.Valid .standard) :
    Code.arguments e.call.inner = e.record.arguments e.spacing := by
  have each := argument_of_mem_arguments valid e.spacing
  have trimmed := map_trim_spaced e.spacing.before e.spacing.after fun t mem => (each t mem).2
  rw [Entry.call, Code.arguments_intercalate, trimmed]
  · intro t mem
    obtain ⟨argument, written, i, rfl⟩ := mem_spaced mem
    exact (each argument written).1.spaced (e.spacing.before i).white (e.spacing.after i).white
  · rw [trimmed]
    intro single
    have := congrArg List.length single
    simp [Record.arguments] at this

theorem argumentLists_eq (shape : Shape) (t : Text) : shape.argumentLists t =
    ((Code.blocks (.creation shape.creation) t).map Code.Block.text).map Code.arguments := by
  simp [Shape.argumentLists, Code.calls]

/-- The argument lists of a written catalog are those of its declarations, whatever their fields hold. -/
theorem argumentLists_written {entries : List Entry} (fillers : ∀ e ∈ entries, Filler e.filler)
    (valid : ∀ e ∈ entries, e.record.Valid .standard) {last : Text} (free : ¬ lit "CommandInfo" <:+: last) :
    Shape.standard.argumentLists (entries.flatMap Entry.text ++ last) =
      entries.map fun e => e.record.arguments e.spacing := by
  have name : Code.Identifier (lit "CommandInfo") := by decide
  have texts : entries.flatMap Entry.text =
      (entries.map Entry.call).flatMap (·.text (.creation (lit "CommandInfo"))) := by
    rw [List.flatMap_map]
    exact List.flatMap_congr fun e _ => text_call e
  have proper : ∀ call ∈ entries.map Entry.call, call.Proper (.creation (lit "CommandInfo")) := by
    intro call mem
    obtain ⟨e, listed, rfl⟩ := List.mem_map.mp mem
    exact {
      free := (fillers e listed).free
      apart := (fillers e listed).apart
      afterNew := fun _ _ => ⟨e.spacing.afterNew.white, e.spacing.apart⟩
      gap := e.spacing.beforeArguments.white
      balanced := balanced_call (valid e listed) }
  have nonempty : (Code.Marker.creation (lit "CommandInfo")).name ≠ [] := by decide
  have found := Code.blocks_written nonempty name proper free
  have texts' := congrArg (List.map Code.Block.text) found
  rw [Code.WrittenCall.map_text_blocks, List.map_map] at texts'
  rw [argumentLists_eq, texts]
  show (List.map Code.Block.text (Code.blocks (.creation (lit "CommandInfo")) _)).map Code.arguments = _
  rw [texts', List.map_map]
  exact List.map_congr_left fun e mem => arguments_call (valid e mem)

theorem escapeProblems_written {shape : Shape} (nine : shape.arity = Command.arity) {r : Record} {spacing : Spacing}
    {d : Declaration} (found : shape.declaration? (r.arguments spacing) = some d) : d.escapeProblems = [] := by
  have one : ∀ field value, escapeWarnings field (Code.single? (Code.encode value)).toList = [] := by
    intro field value
    rw [escapeWarnings, Code.unrecognized_encode]
    rfl
  have list : ∀ field before after values, escapeWarnings field (Code.literals (written before after values)) = [] := by
    intro field before after values
    rw [escapeWarnings, Code.flatMap_unrecognized_literals, literalItems_written]
    simp
  have fields := (declaration?_eq_some_iff nine).mp found
  simp only [Record.arguments, List.cons.injEq, and_true] at fields
  obtain ⟨h₁, h₂, h₃, h₄, -, h₆, h₇, h₈, -⟩ := fields
  rw [escapeProblems, ← h₁, ← h₂, ← h₃, ← h₄, ← h₆, ← h₇, ← h₈]
  simp only [one, list, List.append_nil]

/-- The check of a written catalog gives back the records and what they require, without findings. -/
theorem ofText?_written {entries : List Entry} (nonempty : entries ≠ []) (fillers : ∀ e ∈ entries, Filler e.filler)
    {last : Text} (free : ¬ lit "CommandInfo" <:+: last) (valid : ∀ e ∈ entries, e.record.Valid .standard)
    (distinct : (entries.flatMap (·.record.names)).Nodup) :
    Catalog.ofText? .standard (entries.flatMap Entry.text ++ last) =
      some ⟨entries.map Entry.record, .ofList (entries.map (·.record.permission.trim)), []⟩ := by
  have nine : Shape.standard.arity = Command.arity := rfl
  have lists := argumentLists_written fillers valid free
  have declared : Shape.standard.argumentLists (entries.flatMap Entry.text ++ last) ≠ [] := by
    rw [lists]
    simpa using nonempty
  have all : List.Forall₂ Declares (entries.map fun e => e.record.arguments e.spacing) (entries.map Entry.record) := by
    rw [List.forall₂_map_left_iff, List.forall₂_map_right_iff, List.forall₂_same]
    exact fun e _ => declares_written e.record e.spacing
  have rules : ∀ r ∈ entries.map Entry.record, r.Valid .standard := by
    simpa using valid
  have names : ((entries.map Entry.record).flatMap Record.names).Nodup := by
    rwa [List.flatMap_map]
  have clean := (noErrors_verdicts_iff nine 1).mpr
    ⟨_, all, rules, names, fun name _ => Registry.owner?_empty name⟩
  have quiet : ∀ entry ∈ Shape.standard.verdicts 1 .empty (entries.map fun e => e.record.arguments e.spacing),
      entry.2.problems = [] := by
    intro entry mem
    have passes := clean entry mem
    obtain ⟨owners, arguments, written, eq⟩ := exists_of_mem_verdicts mem
    obtain ⟨e, -, rfl⟩ := List.mem_map.mp written
    rw [eq] at passes ⊢
    exact problems_eq_nil passes fun d found => escapeProblems_written nine found
  obtain ⟨listed, required⟩ := verdicts_of_declares nine all rules 1 .empty
  rw [ofText?_eq_some nine, ofText_of_declared declared, lists, Catalog.ofVerdicts, listed, required, List.map_map]
  refine congrArg some (congrArg (Catalog.mk _ _) ?_)
  refine List.flatMap_eq_nil_iff.mpr fun entry mem => ?_
  show List.map _ entry.2.problems = []
  rw [quiet entry mem]
  rfl

/-- The white space of a declaration on one line, with a line feed in front of its texts. -/
def Spacing.line : Spacing where
  afterNew := .space
  apart := by decide
  beforeArguments := .none
  before _ := .lineFeed
  after _ := .none
  beforeAlias _ := .space
  afterAlias _ := .none
  beforeExample _ := .none
  afterExample _ := .none

/-- Two declarations whose texts hold what the scanner reacts to. -/
def delimiters : List Entry :=
  [⟨lit "List.of(", .line, ⟨lit "/a", lit "new CommandInfo(\"", lit "b, (c", lit "\\d\n", lit "CommandCategory.NATION",
      [lit "/b)", lit "/c,"], [lit "/a \"x\""], lit " p ", true⟩⟩,
   ⟨lit ",", .line, ⟨lit "/d", lit ")", lit "\\", lit "\"", lit "CommandCategory._1", [], [], lit "q", false⟩⟩]

theorem ofText?_delimiters : delimiters ≠ [] ∧ (∀ e ∈ delimiters, Filler e.filler) ∧
    ¬ lit "CommandInfo" <:+: lit ");" ∧ (∀ e ∈ delimiters, e.record.Valid .standard) ∧
    (delimiters.flatMap (·.record.names)).Nodup ∧
    Catalog.ofText? .standard (delimiters.flatMap Entry.text ++ lit ");") =
      some ⟨delimiters.map Entry.record, .ofList (delimiters.map (·.record.permission.trim)), []⟩ := by
  have nonempty : delimiters ≠ [] := List.cons_ne_nil _ _
  have fillers : ∀ e ∈ delimiters, Filler e.filler := by
    refine List.forall_mem_cons.mpr ⟨⟨by decide +kernel, by decide +kernel⟩, List.forall_mem_cons.mpr ⟨?_, by simp⟩⟩
    exact ⟨by decide +kernel, by decide +kernel⟩
  have free : ¬ lit "CommandInfo" <:+: lit ");" := by decide +kernel
  have nation : Constant (lit "NATION") := isConstant_iff.mp (by decide +kernel)
  have one : Constant (lit "_1") := isConstant_iff.mp (by decide +kernel)
  have valid : ∀ e ∈ delimiters, e.record.Valid .standard := by
    refine List.forall_mem_cons.mpr ⟨?_, List.forall_mem_cons.mpr ⟨?_, by simp⟩⟩
    · exact {
        command := by decide +kernel
        displayName := by decide +kernel
        shortDesc := by decide +kernel
        fullDesc := by decide +kernel
        category := ⟨lit "NATION", by decide +kernel, nation⟩
        aliases := by decide +kernel
        examples := by decide +kernel
        permission := by decide +kernel }
    · exact {
        command := by decide +kernel
        displayName := by decide +kernel
        shortDesc := by decide +kernel
        fullDesc := by decide +kernel
        category := ⟨lit "_1", by decide +kernel, one⟩
        aliases := by decide +kernel
        examples := by decide +kernel
        permission := by decide +kernel }
  have distinct : (delimiters.flatMap (·.record.names)).Nodup := by decide +kernel
  exact ⟨nonempty, fillers, free, valid, distinct, ofText?_written nonempty fillers free valid distinct⟩

end PluginAudit.Command
