import PluginAudit.Proofs.Code.Yields
import PluginAudit.Contract.Sides

/-!
# The contract of statements on lines

Source texts are written as lines, each of which sends a request, asks for an update, handles a message, or sends a
response. Whatever the names in them are, each search finds the statements of its own form and no others
(`occurrences_text`).
-/
namespace PluginAudit.Contract
open Code

/-- The forms of statements that matter to the contract. -/
inductive Form
  | send
  | update
  | branch
  | respond
deriving DecidableEq

namespace Form

/-- The word that begins a statement. -/
def keyword : Form → Text
  | send => lit "sendToServer"
  | update => lit "requestUpdate"
  | branch => lit "case"
  | respond => lit "sendData"

/-- The identifiers of a statement before its name, each with what follows it. -/
def leading : Form → List (Text × Text)
  | send => [(lit "sendToServer", lit "("), (lit "CHANNEL", lit ", \"")]
  | update => [(lit "requestUpdate", lit "(\"")]
  | branch => [(lit "case", lit " \"")]
  | respond => [(lit "sendData", lit "("), (lit "player", lit ", \"")]

/-- What follows the name of a statement. -/
def mark : Form → Text
  | send => lit "\");"
  | update => lit "\");"
  | branch => lit "\": "
  | respond => lit "\", "

/-- The identifiers of a statement after its name, each with what follows it. -/
def trailing : Form → List (Text × Text)
  | send => []
  | update => []
  | branch => [(lit "break", lit ";")]
  | respond => [(lit "json", lit ");")]

def opening (form : Form) : Text := form.leading.flatMap fun part => part.1 ++ part.2

def closing (form : Form) : Text := form.mark ++ form.trailing.flatMap fun part => part.1 ++ part.2

end Form

/-- A statement about a name, with white space around it. -/
structure Line where
  before : Gap
  form : Form
  name : Text
  nonempty : name ≠ []
  identifier : Identifier name
  after : Gap

def Line.text (line : Line) : Text :=
  line.before.text ++ (line.form.opening ++ line.name ++ line.form.closing) ++ line.after.text

def text (lines : List Line) : Text := lines.flatMap Line.text

/-- The names in the statements of a form, in order. -/
def named (form : Form) (lines : List Line) : List Text := (lines.filter (·.form = form)).map Line.name

theorem mem_named {form : Form} {lines : List Line} {name : Text} :
    name ∈ named form lines ↔ ∃ line ∈ lines, line.form = form ∧ line.name = name := by
  simp [named, and_assoc]

theorem flatMap_named {α : Type} (form : Form) (item : Text → α) (lines : List Line) :
    lines.flatMap (fun line => if line.form = form then [item line.name] else []) = (named form lines).map item := by
  induction lines with
  | nil => rfl
  | cons line lines ih =>
    rw [List.flatMap_cons, ih, named, named, List.filter_cons]
    by_cases same : line.form = form <;> simp [same]

namespace Form

theorem identifier_keyword (form : Form) : Identifier form.keyword := by
  cases form <;> decide

theorem keyword_ne_nil (form : Form) : form.keyword ≠ [] := by
  cases form <;> decide

/-- The identifiers of a statement besides its name are apart, and not the words of other forms. -/
theorem fixed {form : Form} : ∀ part ∈ form.leading ++ form.trailing,
    Identifier part.1 ∧ part.2 ≠ [] ∧ NoIdentifier part.2 ∧
      ∀ other : Form, form ≠ other → part.1 ≠ other.keyword := by
  have words : ∀ part ∈ form.leading ++ form.trailing, ∀ other ∈ [send, update, branch, respond],
      form ≠ other → part.1 ≠ other.keyword := by
    cases form <;> decide
  have marks : ∀ part ∈ form.leading ++ form.trailing,
      Identifier part.1 ∧ part.2 ≠ [] ∧ NoIdentifier part.2 := by
    cases form <;> decide
  intro part mem
  obtain ⟨run, marked, free⟩ := marks part mem
  exact ⟨run, marked, free, fun other => words part mem other (by cases other <;> decide)⟩

theorem mark_free (form : Form) : NoIdentifier form.mark := by
  cases form <;> decide

theorem mark_eq (form : Form) : ∃ rest, form.mark = '"' :: rest := by
  cases form <;> exact ⟨_, rfl⟩

end Form

section
variable {α : Type} {read : Text → Text → Reading α} {form : Form}

theorem Line.yields {line : Line} {items : List α}
    (statement : Yields form.keyword read (line.form.opening ++ line.name ++ line.form.closing) items) :
    Yields form.keyword read line.text items := by
  have gap : ∀ gap : Gap, Yields form.keyword read gap.text [] := fun gap =>
    .mark form.identifier_keyword form.keyword_ne_nil (noIdentifier_of_blank gap.white)
  have whole := ((gap line.before).append statement).append (gap line.after)
  rwa [List.nil_append, List.append_nil] at whole

/-- A statement of another form yields nothing, even if its name is the word that is looked for. -/
theorem Line.yields_nil (whole : WholeWord read) (quote : ∀ before after, read before ('"' :: after) = .rejected)
    {line : Line} (other : line.form ≠ form) : Yields form.keyword read line.text [] := by
  have fixed : ∀ parts : List (Text × Text), parts ⊆ line.form.leading ++ line.form.trailing →
      Yields form.keyword read (parts.flatMap fun part => part.1 ++ part.2) [] := by
    intro parts among
    have each : ∀ part ∈ parts, Yields form.keyword read (part.1 ++ part.2) [] := by
      intro part mem
      obtain ⟨run, marked, free, apart⟩ := Form.fixed part (among mem)
      exact .other form.identifier_keyword form.keyword_ne_nil whole run marked free fun same =>
        absurd same (apart form other)
    have all := Yields.flatMap each
    rwa [List.flatMap_eq_nil_iff.mpr fun _ _ => rfl] at all
  have name : Yields form.keyword read (line.name ++ line.form.mark) [] := by
    obtain ⟨rest, mark⟩ := line.form.mark_eq
    refine .other form.identifier_keyword form.keyword_ne_nil whole line.identifier (by simp [mark])
      line.form.mark_free fun _ before after => ?_
    rw [mark, List.cons_append]
    exact quote before _
  have statement := ((fixed line.form.leading (List.subset_append_left _ _)).append name).append
    (fixed line.form.trailing (List.subset_append_right _ _))
  refine line.yields ?_
  rw [Form.opening, Form.closing]
  simpa using statement

/-- A search finds the statements of its form, whatever the statements of other forms are about. -/
theorem occurrences_text (whole : WholeWord read) (quote : ∀ before after, read before ('"' :: after) = .rejected)
    {item : Text → α} {lines : List Line}
    (own : ∀ line ∈ lines, line.form = form → Yields form.keyword read line.text [item line.name]) :
    (occurrences form.keyword read (text lines)).map Prod.snd = (named form lines).map item := by
  rw [← flatMap_named]
  refine Yields.occurrences (.flatMap fun line mem => ?_)
  by_cases same : line.form = form
  · rw [if_pos same]
    exact own line mem same
  · rw [if_neg same]
    exact Line.yields_nil whole quote same

end

theorem encode_identifier {name : Text} (identifier : Identifier name) : encode name = '"' :: (name ++ ['"']) := by
  have plain : ∀ c, isIdentifierChar c → (Item.ofChar c).spelling = [c] := by
    intro c char
    have other : ∀ d, isIdentifierChar d = false → c ≠ d := by
      rintro d apart rfl
      rw [apart] at char
      cases char
    simp [Item.ofChar, other '\\' (by decide), other '"' (by decide), other '\n' (by decide), other '\t' (by decide),
      Item.spelling]
  have spelled : (name.map Item.ofChar).flatMap Item.spelling = name := by
    induction name with
    | nil => rfl
    | cons c name ih =>
      have rest := ih fun d mem => identifier d (by simp [mem])
      rw [List.map_cons, List.flatMap_cons, plain c (identifier c (by simp)), rest]
      rfl
  rw [encode_eq_quoted, quoted, spelled]

/-- The arguments of a statement that is a call, with the white space before them. -/
def Form.arguments : Form → Text → List Text
  | send, name => [lit "CHANNEL", lit " " ++ encode name]
  | update, name => [encode name]
  | branch, _ => []
  | respond, name => [lit "player", lit " " ++ encode name, lit " json"]

theorem Form.call_eq {form : Form} (call : form ≠ .branch) {name : Text} (identifier : Identifier name) :
    form.opening ++ name ++ form.closing =
      form.keyword ++ '(' :: ([','].intercalate (form.arguments name) ++ [')']) ++ lit ";" := by
  cases form with
  | send =>
    have first : send.opening = send.keyword ++ '(' :: (lit "CHANNEL" ++ ',' :: (lit " " ++ ['"'])) := rfl
    have last : send.closing = '"' :: ')' :: lit ";" := rfl
    rw [first, last, arguments, encode_identifier identifier]
    simp [List.intercalate]
  | update =>
    have first : update.opening = update.keyword ++ '(' :: ['"'] := rfl
    have last : update.closing = '"' :: ')' :: lit ";" := rfl
    rw [first, last, arguments, encode_identifier identifier]
    simp [List.intercalate]
  | branch => exact absurd rfl call
  | respond =>
    have first : respond.opening = respond.keyword ++ '(' :: (lit "player" ++ ',' :: (lit " " ++ ['"'])) := rfl
    have last : respond.closing = '"' :: ',' :: (lit " json" ++ ')' :: lit ";") := rfl
    rw [first, last, arguments, encode_identifier identifier]
    simp [List.intercalate]

theorem Form.argument (form : Form) (name : Text) : ∀ t ∈ form.arguments name, Argument t := by
  have plain : ∀ t ∈ [lit "CHANNEL", lit " ", lit "player", lit " json"], Argument t := by
    have free : ∀ t ∈ [lit "CHANNEL", lit " ", lit "player", lit " json"], Undelimited t := by
      decide
    exact fun t mem => (free t mem).argument
  have spaced : Argument (lit " " ++ encode name) := (plain _ (by simp)).append (argument_encode name)
  cases form with
  | send => simpa [arguments, spaced] using plain (lit "CHANNEL") (by simp)
  | update => simpa [arguments] using argument_encode name
  | branch => simp [arguments]
  | respond => simpa [arguments, spaced] using ⟨plain (lit "player") (by simp), plain (lit " json") (by simp)⟩

theorem Line.yields_call {line : Line} (call : line.form ≠ .branch) :
    Yields line.form.keyword (Marker.call line.form.keyword).read line.text
      [(1, [','].intercalate (line.form.arguments line.name))] := by
  have balanced : Balanced ([','].intercalate (line.form.arguments line.name)) :=
    .intercalate fun t mem => (Form.argument _ _ t mem).balanced
  have semicolon : NoIdentifier (lit ";") := by decide
  refine line.yields ?_
  rw [Form.call_eq call line.identifier]
  exact (Code.yields_call line.form.keyword_ne_nil balanced).append
    (.mark line.form.identifier_keyword line.form.keyword_ne_nil semicolon)

theorem Line.yields_label {line : Line} (branch : line.form = .branch) :
    Yields Form.branch.keyword readLabel line.text [⟨line.name.map Item.ofChar, 1, true⟩] := by
  have opening : Form.branch.opening = Form.branch.keyword ++ (lit " " ++ ['"']) := rfl
  have closing : Form.branch.closing = '"' :: (lit ": " ++ (lit "break" ++ lit ";")) := rfl
  have written : Form.branch.opening ++ line.name ++ Form.branch.closing =
      Form.branch.keyword ++ (lit " " ++ encode line.name) ++ lit ": " ++ (lit "break" ++ lit ";") := by
    rw [opening, closing, encode_identifier line.identifier]
    simp
  have word := Form.branch.identifier_keyword
  have nonempty := Form.branch.keyword_ne_nil
  have white : Text.blank (lit " ") := by decide
  have items : ∀ item ∈ line.name.map Item.ofChar, item.Proper := Item.proper_of_mem_map_ofChar
  have label := Code.yields_label nonempty white (by decide) items
  have colon : NoIdentifier (lit ": ") := by decide
  have semicolon : NoIdentifier (lit ";") := by decide
  have rest : Yields Form.branch.keyword readLabel (lit "break" ++ lit ";") [] := by
    have run : Identifier (lit "break") := by decide
    have apart : lit "break" ≠ Form.branch.keyword := by decide
    exact .other word nonempty wholeWord_readLabel run (by decide) semicolon fun same => absurd same apart
  refine line.yields ?_
  rw [branch, written]
  exact (label.append (.mark word nonempty colon)).append rest

theorem map_blocks_text {form : Form} (call : form ≠ .branch) (lines : List Line) :
    (blocks (.call form.keyword) (text lines)).map Block.text =
      (named form lines).map fun name => [','].intercalate (form.arguments name) := by
  have found : (occurrences form.keyword (Marker.call form.keyword).read (text lines)).map Prod.snd =
      (named form lines).map fun name => (1, [','].intercalate (form.arguments name)) := by
    refine occurrences_text (wholeWord_read _) (Marker.read_quote _) fun line _ same => ?_
    subst same
    exact line.yields_call call
  have inner := congrArg (List.map Prod.snd) found
  rw [List.map_map, List.map_map] at inner
  rw [blocks, List.map_map]
  exact inner

theorem ne_nil_of_mem_named {form : Form} {lines : List Line} {name : Text} (mem : name ∈ named form lines) :
    name ≠ [] := by
  obtain ⟨line, -, -, rfl⟩ := mem_named.mp mem
  exact line.nonempty

theorem map_calls_text {form : Form} (call : form ≠ .branch) (lines : List Line) :
    (calls (.call form.keyword) (text lines)).map Prod.snd =
      (named form lines).map fun name => (form.arguments name).map Text.trim := by
  have read := congrArg (List.map arguments) (map_blocks_text call lines)
  rw [List.map_map, List.map_map] at read
  rw [calls, List.map_map]
  refine read.trans (List.map_congr_left fun name mem => ?_)
  refine arguments_intercalate (Form.argument form name) ?_
  have solid : (encode name).trim ≠ [] := by
    rw [trim_encode]
    exact List.cons_ne_nil _ _
  cases form with
  | send => simp [Form.arguments]
  | update => simpa [Form.arguments] using solid
  | branch => exact absurd rfl call
  | respond => simp [Form.arguments]

/-- What is picked from the calls of a form, if it is the name in each. -/
theorem literals_text {form : Form} (call : form ≠ .branch) {pick : List Text → Option Text}
    (picked : ∀ name, pick ((form.arguments name).map Text.trim) = some name) (lines : List Line) :
    literals pick form.keyword (text lines) = named form lines := by
  have read := congrArg (List.filterMap pick) (map_calls_text call lines)
  rw [List.filterMap_map, List.filterMap_map] at read
  have names : (named form lines).map (fun name => pick ((form.arguments name).map Text.trim)) =
      (named form lines).map some :=
    List.map_congr_left fun name _ => picked name
  have values := congrArg (List.filterMap id) names
  rw [List.filterMap_map, List.filterMap_map] at values
  exact read.trans (values.trans List.filterMap_some)

theorem trim_spaced_encode (name : Text) : Text.trim (lit " " ++ encode name) = encode name := by
  have white : Text.blank (lit " ") := by decide
  rw [Text.trim_blank_append white, trim_encode]

theorem literals_send (lines : List Line) :
    literals second? (lit "sendToServer") (text lines) = named .send lines := by
  have call : Form.send ≠ .branch := by decide
  refine literals_text call (fun name => ?_) lines
  simp [Form.arguments, second?, trim_spaced_encode, value_encode]

theorem literals_respond (lines : List Line) :
    literals second? (lit "sendData") (text lines) = named .respond lines := by
  have call : Form.respond ≠ .branch := by decide
  refine literals_text call (fun name => ?_) lines
  simp [Form.arguments, second?, trim_spaced_encode, value_encode]

theorem literals_update (lines : List Line) :
    literals only? (lit "requestUpdate") (text lines) = named .update lines := by
  have call : Form.update ≠ .branch := by decide
  refine literals_text call (fun name => ?_) lines
  simp [Form.arguments, only?, trim_encode, value_encode]

theorem branchLabels_text (lines : List Line) : branchLabels (text lines) = named .branch lines := by
  have found : (occurrences Form.branch.keyword readLabel (text lines)).map Prod.snd =
      (named .branch lines).map fun name => ⟨name.map Item.ofChar, 1, true⟩ :=
    occurrences_text wholeWord_readLabel readLabel_quote fun line _ same => line.yields_label same
  have values := congrArg (List.map Literal.value) found
  rw [List.map_map, List.map_map] at values
  rw [branchLabels, labels, List.map_map]
  refine values.trans ((List.map_congr_left fun name _ => ?_).trans (List.map_id _))
  exact flatMap_value_map_ofChar name

end PluginAudit.Contract
