import PluginAudit.Permission.Manifest
import PluginAudit.Proofs.Text.Lines

/-!
# The permissions that a manifest declares

A manifest whose section is written of lines that declare a permission (`Declares`) or belong to the body of one
(`Describes`) is read as what its section declares and nothing else, and a manifest without a header declares
nothing (`recovers`). A carriage return at the end of a line makes no difference (`ofLines_congr`), so a manifest
may be read as it is written (`ofText_of_opens`).
-/
namespace PluginAudit.Manifest

/-- White space aside, a line is the header of the section. -/
def Header (line : Text) : Prop :=
  ∃ gap after : Text, gap.blank ∧ after.blank ∧ line.trim = lit "permissions" ++ (gap ++ ':' :: after)

/-- What a line says after its two spaces declares a permission. -/
def Names (inner name : Text) : Prop :=
  name ≠ [] ∧ (∀ c ∈ name, isNameChar c) ∧
    ∃ gap after : Text, gap.blank ∧ after.blank ∧ inner = name ++ (gap ++ ':' :: after)

/-- A line declares a permission: two spaces, its name and a colon, with white space around the colon only. -/
def Declares (line name : Text) : Prop := ∃ inner, line = lit "  " ++ inner ∧ Names inner name

/-- A line of the body of a declaration: two spaces, and white space again unless the line ends. -/
def Describes (line : Text) : Prop := line = lit "  " ∨ ∃ c rest, isBlank c ∧ line = lit "  " ++ c :: rest

theorem isColon_iff {t : Text} :
    isColon t ↔ ∃ gap after : Text, gap.blank ∧ after.blank ∧ t = gap ++ ':' :: after := by
  constructor
  · intro colon
    unfold isColon at colon
    split at colon
    next after start =>
      refine ⟨t.takeWhile isBlank, after, List.all_takeWhile, colon, ?_⟩
      rw [← start, Text.trimStart, List.takeWhile_append_dropWhile]
    next => cases colon
  · rintro ⟨gap, after, white, whiteAfter, rfl⟩
    have start : Text.trimStart (gap ++ ':' :: after) = ':' :: after := by
      rw [Text.trimStart, List.dropWhile_append_of_pos fun c mem => Text.isBlank_of_mem white mem]
      exact List.dropWhile_cons_of_neg (by decide)
    rw [isColon, start]
    exact whiteAfter

theorem isHeader_iff {line : Text} : isHeader line ↔ Header line := by
  rw [isHeader, Option.any_eq_true]
  constructor
  · rintro ⟨rest, word, colon⟩
    obtain ⟨gap, after, white, whiteAfter, rfl⟩ := isColon_iff.mp colon
    exact ⟨gap, after, white, whiteAfter, Text.after?_eq_some_iff.mp word⟩
  · rintro ⟨gap, after, white, whiteAfter, spelled⟩
    exact ⟨_, Text.after?_eq_some_iff.mpr spelled, isColon_iff.mpr ⟨gap, after, white, whiteAfter, rfl⟩⟩

theorem not_isNameChar_of_isBlank {c : Char} (white : isBlank c) : isNameChar c = false := by
  have every : ∀ n ∈ Text.blankCodes, isNameChar (Char.ofNat n) = false := by decide +kernel
  simpa using every c.toNat (Text.mem_blankCodes white)

theorem entry?_eq_some_iff {inner name : Text} : entry? inner = some name ↔ Names inner name := by
  constructor
  · intro entry
    simp only [ entry?] at entry
    split at entry
    next accepted =>
      obtain rfl := Option.some.inj entry
      obtain ⟨nonempty, colon⟩ := Bool.and_eq_true_iff.mp accepted
      obtain ⟨gap, after, white, whiteAfter, tail⟩ := isColon_iff.mp colon
      refine ⟨by simpa using nonempty, fun c mem => ?_, gap, after, white, whiteAfter, ?_⟩
      · exact List.all_eq_true.mp List.all_takeWhile c mem
      · rw [← tail, List.takeWhile_append_dropWhile]
    next => cases entry
  · rintro ⟨nonempty, named, gap, after, white, whiteAfter, rfl⟩
    have colon : isColon (gap ++ ':' :: after) := isColon_iff.mpr ⟨gap, after, white, whiteAfter, rfl⟩
    -- the name ends where the gap or the colon begins
    have stops : (gap ++ ':' :: after).takeWhile isNameChar = [] ∧
        (gap ++ ':' :: after).dropWhile isNameChar = gap ++ ':' :: after := by
      cases gap with
      | nil => exact ⟨rfl, rfl⟩
      | cons c gap =>
        have other := not_isNameChar_of_isBlank (Text.blank_cons_iff.mp white).1
        simp [other]
    unfold entry?
    rw [List.takeWhile_append_of_pos named, List.dropWhile_append_of_pos named, stops.1, stops.2, List.append_nil]
    simp [nonempty, colon]

theorem indented?_eq_some_iff {line inner : Text} : indented? line = some inner ↔ line = lit "  " ++ inner :=
  Text.after?_eq_some_iff

theorem indented?_eq_none_iff {line : Text} : indented? line = none ↔ ¬ lit "  " <+: line := by
  rw [← Option.not_isSome_iff_eq_none, Option.isSome_iff_exists]
  refine not_congr (exists_congr fun inner => ?_)
  rw [indented?_eq_some_iff, eq_comm]

theorem declares_iff {line name : Text} : Declares line name ↔ (indented? line).bind entry? = some name := by
  simp only [Declares, Option.bind_eq_some_iff, indented?_eq_some_iff, entry?_eq_some_iff]

instance (line : Text) : Decidable (Header line) := decidable_of_iff _ isHeader_iff

instance (line name : Text) : Decidable (Declares line name) := decidable_of_iff _ declares_iff.symm

theorem Declares.indented {line name : Text} (declares : Declares line name) : lit "  " <+: line := by
  obtain ⟨inner, rfl, -⟩ := declares
  exact List.prefix_append _ _

theorem Describes.indented {line : Text} (describes : Describes line) : lit "  " <+: line := by
  rcases describes with rfl | ⟨c, rest, -, rfl⟩
  · exact List.prefix_rfl
  · exact List.prefix_append _ _

theorem isHeader_append_return (line : Text) : isHeader (line ++ ['\r']) = isHeader line := by
  rw [isHeader, isHeader, Text.trim_append_blank (by decide)]

theorem indented?_append_return (line : Text) :
    indented? (line ++ ['\r']) = (indented? line).map (· ++ ['\r']) := by
  ext inner
  rw [Option.map_eq_some_iff, indented?_eq_some_iff]
  constructor
  · intro spelled
    rcases inner.eq_nil_or_concat with rfl | ⟨inner, c, rfl⟩
    · have last := congrArg List.getLast? spelled
      rw [List.getLast?_concat] at last
      exact absurd last (by decide)
    · rw [List.concat_eq_append, ← List.append_assoc] at spelled
      obtain ⟨kept, final⟩ := List.append_inj' spelled rfl
      exact ⟨inner, indented?_eq_some_iff.mpr kept, by rw [List.concat_eq_append, final]⟩
  · rintro ⟨inner, found, rfl⟩
    rw [indented?_eq_some_iff.mp found, List.append_assoc]

theorem names_append_return {inner name : Text} : Names (inner ++ ['\r']) name ↔ Names inner name := by
  constructor
  · rintro ⟨nonempty, named, gap, after, white, whiteAfter, spelled⟩
    rcases after.eq_nil_or_concat with rfl | ⟨after, c, rfl⟩
    · have last := congrArg List.getLast? spelled
      simp at last
    · rw [List.concat_eq_append] at spelled whiteAfter
      have split : inner ++ ['\r'] = (name ++ (gap ++ ':' :: after)) ++ [c] := by simpa using spelled
      have kept := (Text.blank_append_iff.mp whiteAfter).1
      exact ⟨nonempty, named, gap, after, white, kept, (List.append_inj' split rfl).1⟩
  · rintro ⟨nonempty, named, gap, after, white, whiteAfter, rfl⟩
    have blankAfter : Text.blank (after ++ ['\r']) := Text.blank_append_iff.mpr ⟨whiteAfter, by decide⟩
    exact ⟨nonempty, named, gap, after ++ ['\r'], white, blankAfter, by simp⟩

theorem entry?_append_return (inner : Text) : entry? (inner ++ ['\r']) = entry? inner := by
  ext name
  rw [entry?_eq_some_iff, entry?_eq_some_iff, names_append_return]

section ReadAs
variable {written read : List Text}

theorem sectionLines_congr (same : List.Forall₂ Text.ReadAs written read) (rest : List Text) :
    (sectionLines (written ++ rest)).filterMap entry? = (sectionLines (read ++ rest)).filterMap entry? := by
  induction same with
  | nil => rfl
  | @cons line line' _ _ first _ ih =>
    rcases first with rfl | rfl
    all_goals
      simp only [List.cons_append, sectionLines, indented?_append_return]
      cases indented? _ with
      | none => rfl
      | some inner => simp only [Option.map_some, List.filterMap_cons, entry?_append_return, ih]

theorem ofLines_cons (line : Text) (lines : List Text) :
    ofLines (line :: lines) =
      if isHeader line then ⟨.ofList ((sectionLines lines).filterMap entry?), true⟩ else ofLines lines := by
  unfold ofLines
  rw [List.dropWhile_cons]
  cases isHeader line <;> rfl

theorem ofLines_congr (same : List.Forall₂ Text.ReadAs written read) (rest : List Text) :
    ofLines (written ++ rest) = ofLines (read ++ rest) := by
  induction same with
  | nil => rfl
  | @cons line line' _ _ first others ih =>
    have sameHeader : isHeader line = isHeader line' := by
      rcases first with rfl | rfl
      · rfl
      · exact isHeader_append_return line'
    rw [List.cons_append, List.cons_append, ofLines_cons, ofLines_cons, sameHeader, sectionLines_congr others, ih]

end ReadAs

/-- A manifest is read as its lines are written. -/
theorem ofText_of_opens {t rest : Text} {written : List Text} (opens : Text.Opens t written rest) :
    ofText t = ofLines (written ++ rest.lines) := by
  obtain ⟨read, split, same⟩ := opens.read
  rw [ofText, split, ofLines_congr same]

theorem sectionLines_append {lines : List Text} (indented : ∀ line ∈ lines, lit "  " <+: line) (rest : List Text) :
    sectionLines (lines ++ rest) = lines.filterMap indented? ++ sectionLines rest := by
  induction lines with
  | nil => rfl
  | cons line lines ih =>
    obtain ⟨first, others⟩ := List.forall_mem_cons.mp indented
    obtain ⟨inner, spelled⟩ := first
    have found : indented? line = some inner := indented?_eq_some_iff.mpr spelled.symm
    rw [List.cons_append, sectionLines, found, List.filterMap_cons, found, ih others]
    rfl

theorem sectionLines_lines {rest : Text} (ends : ¬ lit "  " <+: rest) : sectionLines rest.lines = [] := by
  cases split : rest.lines with
  | nil => rfl
  | cons first others =>
    have start : first <+: rest := Text.prefix_of_mem_head?_lines (by rw [split]; rfl)
    have outside : indented? first = none := indented?_eq_none_iff.mpr fun spaces => ends (spaces.trans start)
    rw [sectionLines, outside]

theorem mem_entries_iff {lines : List Text} {name : Text} :
    name ∈ (lines.filterMap indented?).filterMap entry? ↔ ∃ line ∈ lines, Declares line name := by
  rw [List.filterMap_filterMap, List.mem_filterMap]
  exact exists_congr fun line => and_congr_right fun _ => declares_iff.symm

theorem ofLines_of_header {before : List Text} {header : Text} (unheaded : ∀ line ∈ before, ¬ Header line)
    (headed : Header header) (after : List Text) :
    ofLines (before ++ header :: after) = ⟨.ofList ((sectionLines after).filterMap entry?), true⟩ := by
  have skipped : ∀ line ∈ before, (!isHeader line) = true := by
    intro line mem
    simpa using isHeader_iff.not.mpr (unheaded line mem)
  have found : isHeader header = true := isHeader_iff.mpr headed
  rw [ofLines, List.dropWhile_append_of_pos skipped, List.dropWhile_cons_of_neg (by simp [found])]

theorem ofLines_of_no_header {lines : List Text} (unheaded : ∀ line ∈ lines, ¬ Header line) :
    ofLines lines = ⟨∅, false⟩ := by
  have skipped : lines.dropWhile (!isHeader ·) = [] := by
    refine List.dropWhile_eq_nil_iff.mpr fun line mem => ?_
    simpa using isHeader_iff.not.mpr (unheaded line mem)
  rw [ofLines, skipped]

/-- A manifest written as lines before its section, the header and the lines of the section. -/
structure Written (t : Text) where
  before : List Text
  header : Text
  inside : List Text
  rest : Text
  opens : Text.Opens t (before ++ header :: inside) rest
  unheaded : ∀ line ∈ before, ¬ Header line
  headed : Header header
  formed : ∀ line ∈ inside, (∃ name, Declares line name) ∨ Describes line
  ends : ¬ lit "  " <+: rest

theorem Written.indented {t : Text} (w : Written t) {line : Text} (mem : line ∈ w.inside) : lit "  " <+: line := by
  rcases w.formed line mem with ⟨name, declares⟩ | describes
  · exact declares.indented
  · exact describes.indented

/-- A manifest declares exactly what its section says, and without a header it declares nothing. -/
theorem recovers (t : Text) :
    (∀ w : Written t, (ofText t).hasSection = true ∧
      ∀ name, name ∈ (ofText t).permissions ↔ ∃ line ∈ w.inside, Declares line name) ∧
    (∃ lines, Text.Opens t lines []) ∧
    ∀ lines, Text.Opens t lines [] → (∀ line ∈ lines, ¬ Header line) → ofText t = ⟨∅, false⟩ := by
  refine ⟨fun w => ?_, Text.exists_opens t, fun lines opens unheaded => ?_⟩
  · have whole : ofText t = ⟨.ofList ((w.inside.filterMap indented?).filterMap entry?), true⟩ := by
      rw [ofText_of_opens w.opens, List.append_assoc, List.cons_append, ofLines_of_header w.unheaded w.headed,
        sectionLines_append fun _ => w.indented, sectionLines_lines w.ends, List.append_nil]
    rw [whole]
    exact ⟨rfl, fun name => NameSet.mem_ofList.trans mem_entries_iff⟩
  · rw [ofText_of_opens opens]
    exact ofLines_of_no_header (by simpa [Text.lines, Text.linesAfter] using unheaded)

/-- A manifest with line ends of both kinds, details of a permission, and more after its section. -/
def sampleText : Text :=
  lit "name: A" ++ ['\r', '\n'] ++ (lit " permissions :" ++ ['\n'] ++ (lit "  a.b:" ++ ['\r', '\n'] ++
    (lit "    c:" ++ ['\n'] ++ (lit "  d :" ++ ['\n'] ++ lit "depend: []\n  e:\npermissions:\n  f:"))))

def sample : Written sampleText where
  before := [lit "name: A"]
  header := lit " permissions :"
  inside := [lit "  a.b:", lit "    c:", lit "  d :"]
  rest := lit "depend: []\n  e:\npermissions:\n  f:"
  opens := .ended (by decide) (.inr rfl) <| .ended (by decide) (.inl rfl) <| .ended (by decide) (.inr rfl) <|
    .ended (by decide) (.inl rfl) <| .ended (by decide) (.inl rfl) <| .done _
  unheaded := by decide
  headed := by decide
  formed := by
    refine List.forall_mem_cons.mpr ⟨.inl ⟨lit "a.b", by decide⟩, List.forall_mem_cons.mpr ⟨.inr ?_, ?_⟩⟩
    · exact .inr ⟨' ', lit " c:", by decide, by decide⟩
    · exact List.forall_mem_cons.mpr ⟨.inl ⟨lit "d", by decide⟩, fun _ mem => absurd mem List.not_mem_nil⟩
  ends := by decide

theorem recovers_sample :
    lit "a.b" ∈ (ofText sampleText).permissions ∧ lit "d" ∈ (ofText sampleText).permissions ∧
      lit "c" ∉ (ofText sampleText).permissions ∧ lit "f" ∉ (ofText sampleText).permissions ∧
      ofText (lit "  a:") = ⟨∅, false⟩ := by
  obtain ⟨-, declared⟩ := (recovers sampleText).1 sample
  simp only [declared]
  refine ⟨by decide, by decide, by decide, by decide, ?_⟩
  exact (recovers (lit "  a:")).2.2 [lit "  a:"] (.last (by decide) (by decide)) (by decide)

end PluginAudit.Manifest
