import PluginAudit.Code.Call
import PluginAudit.Code.Literal
import Mathlib.Tactic.ByContra

/-!
# Balanced texts

The grammar that the scanner follows: a balanced text consists of plain characters, of complete string literals, and
of balanced texts in parentheses; an argument is one without a comma of its own. The scanner comes out of a balanced
text as it went in (`Balanced.reads`) and meets no separator of its own in an argument (`Argument.reads`).
-/
namespace PluginAudit.Code

/-- Whether an item is one that can be read: a quote or a backslash does not stand for itself. -/
def Item.Proper : Item → Prop
  | .plain c => c ≠ '"' ∧ c ≠ '\\'
  | .escaped _ => True

instance : DecidablePred Item.Proper
  | .plain c => inferInstanceAs (Decidable (c ≠ '"' ∧ c ≠ '\\'))
  | .escaped _ => inferInstanceAs (Decidable True)

/-- How a complete literal of the given items is written. -/
def quoted (items : List Item) : Text := '"' :: (items.flatMap Item.spelling ++ ['"'])

/-- Texts in which every string and every parenthesis is closed. -/
inductive Balanced : Text → Prop
  | nil : Balanced []
  | char {c : Char} {t : Text} (notQuote : c ≠ '"') (notOpening : c ≠ '(') (notClosing : c ≠ ')')
      (rest : Balanced t) : Balanced (c :: t)
  | string {items : List Item} {t : Text} (proper : ∀ item ∈ items, item.Proper)
      (rest : Balanced t) : Balanced (quoted items ++ t)
  | group {inner t : Text} (nested : Balanced inner) (rest : Balanced t) :
      Balanced ('(' :: inner ++ ')' :: t)

/-- Balanced texts whose commas all stand in strings or in parentheses. -/
inductive Argument : Text → Prop
  | nil : Argument []
  | char {c : Char} {t : Text} (notQuote : c ≠ '"') (notOpening : c ≠ '(') (notClosing : c ≠ ')')
      (notComma : c ≠ ',') (rest : Argument t) : Argument (c :: t)
  | string {items : List Item} {t : Text} (proper : ∀ item ∈ items, item.Proper)
      (rest : Argument t) : Argument (quoted items ++ t)
  | group {inner t : Text} (nested : Balanced inner) (rest : Argument t) :
      Argument ('(' :: inner ++ ')' :: t)

theorem Argument.balanced {t : Text} (argument : Argument t) : Balanced t := by
  induction argument with
  | nil => exact .nil
  | char notQuote notOpening notClosing _ _ ih => exact .char notQuote notOpening notClosing ih
  | string proper _ ih => exact .string proper ih
  | group nested _ ih => exact .group nested ih

theorem Balanced.append {s t : Text} (first : Balanced s) (second : Balanced t) : Balanced (s ++ t) := by
  induction first with
  | nil => exact second
  | char notQuote notOpening notClosing _ ih => exact .char notQuote notOpening notClosing ih
  | string proper _ ih => rw [List.append_assoc]; exact .string proper ih
  | group nested _ _ ih => simpa using Balanced.group nested ih

theorem Argument.append {s t : Text} (first : Argument s) (second : Argument t) : Argument (s ++ t) := by
  induction first with
  | nil => exact second
  | char notQuote notOpening notClosing notComma _ ih => exact .char notQuote notOpening notClosing notComma ih
  | string proper _ ih => rw [List.append_assoc]; exact .string proper ih
  | group nested _ ih => simpa using Argument.group nested ih

/-- The characters that the scanner reacts to outside strings. -/
def isDelimiter (c : Char) : Bool := c == '"' || c == '(' || c == ')' || c == ','

theorem isDelimiter_eq_false_iff {c : Char} :
    isDelimiter c = false ↔ c ≠ '"' ∧ c ≠ '(' ∧ c ≠ ')' ∧ c ≠ ',' := by
  simp only [isDelimiter, Bool.or_eq_false_iff, beq_eq_false_iff_ne, and_assoc]

def Undelimited (t : Text) : Prop := ∀ c ∈ t, isDelimiter c = false

instance (t : Text) : Decidable (Undelimited t) :=
  decidable_of_iff (t.all (!isDelimiter ·)) (by simp [Undelimited])

theorem Undelimited.argument {t : Text} (free : Undelimited t) : Argument t := by
  induction t with
  | nil => exact .nil
  | cons c t ih =>
    obtain ⟨notQuote, notOpening, notClosing, notComma⟩ := isDelimiter_eq_false_iff.mp (free c (by simp))
    exact .char notQuote notOpening notClosing notComma (ih fun d mem => free d (by simp [mem]))

theorem Argument.quoted {items : List Item} (proper : ∀ item ∈ items, item.Proper) :
    Argument (quoted items) := by
  simpa using Argument.string proper .nil

theorem isDelimiter_of_isBlank {c : Char} (white : isBlank c) : isDelimiter c = false := by
  rw [isDelimiter]
  by_contra delimiter
  simp only [Bool.not_eq_false, Bool.or_eq_true, beq_iff_eq] at delimiter
  rcases delimiter with ((rfl | rfl) | rfl) | rfl <;> revert white <;> decide

theorem Undelimited.of_blank {gap : Text} (white : gap.blank) : Undelimited gap :=
  fun c mem => isDelimiter_of_isBlank (List.all_eq_true.mp white c mem)

theorem Argument.spaced {before after t : Text} (white : before.blank) (argument : Argument t)
    (white' : after.blank) : Argument (before ++ t ++ after) :=
  ((Undelimited.of_blank white).argument.append argument).append (Undelimited.of_blank white').argument

theorem Balanced.intercalate {ts : List Text} (each : ∀ t ∈ ts, Balanced t) :
    Balanced ([','].intercalate ts) := by
  induction ts with
  | nil => exact .nil
  | cons t ts ih =>
    cases ts with
    | nil =>
      rw [List.intercalate_singleton]
      exact each t (by simp)
    | cons u us =>
      have rest := ih fun v mem => each v (by simp [mem])
      rw [List.intercalate_cons_cons, List.append_assoc, List.singleton_append]
      exact (each t (by simp)).append (.char (by decide) (by decide) (by decide) rest)

namespace Scanner

/-- The scanner goes through a text from one state to another, and every step is as `P` says. -/
def Reads (P : Token × Scanner → Prop) (s : Scanner) (t : Text) (s' : Scanner) : Prop :=
  s.run t = s' ∧ ∀ step ∈ s.trace t, P step

variable {P Q : Token × Scanner → Prop} {s s' s'' : Scanner} {t u : Text}

theorem Reads.nil : Reads P s [] s := ⟨rfl, by simp [trace]⟩

theorem Reads.cons {c : Char} (first : P (s.step c)) (rest : Reads P (s.step c).2 t s') :
    Reads P s (c :: t) s' := by
  refine ⟨rest.1, fun step mem => ?_⟩
  rcases List.mem_cons.mp mem with rfl | mem
  · exact first
  · exact rest.2 step mem

theorem Reads.append (first : Reads P s t s') (rest : Reads P s' u s'') : Reads P s (t ++ u) s'' := by
  refine ⟨by rw [run_append, first.1, rest.1], fun step mem => ?_⟩
  rw [trace_append, first.1] at mem
  rcases List.mem_append.mp mem with mem | mem
  · exact first.2 step mem
  · exact rest.2 step mem

theorem Reads.mono (reads : Reads P s t s') (weaker : ∀ step, P step → Q step) : Reads Q s t s' :=
  ⟨reads.1, fun step mem => weaker step (reads.2 step mem)⟩

/-- Whether a step reads the parenthesis that closes the outermost one. -/
def Closes (step : Token × Scanner) : Prop := step.1 = .closing ∧ step.2.depth = 0

/-- Whether a step reads a comma between two arguments. -/
def Cuts (step : Token × Scanner) : Prop := step.1 = .separator ∧ step.2.depth = 0

/-- Whether a step reads a quote or stays inside a string, at a given depth. -/
def Quotes (depth : Int) (step : Token × Scanner) : Prop :=
  (step.1 = .quote ∨ step.1 = .literal) ∧ step.2.depth = depth

/-- Whether a step reads a character inside a string, at a given depth. -/
def Within (depth : Int) (step : Token × Scanner) : Prop := step.1 = .literal ∧ step.2.depth = depth

theorem Within.quotes {depth : Int} {step : Token × Scanner} (within : Within depth step) : Quotes depth step :=
  ⟨.inr within.1, within.2⟩

theorem Quotes.not_closes {depth : Int} {step : Token × Scanner} (quotes : Quotes depth step) : ¬ Closes step := by
  rintro ⟨closing, -⟩
  rcases quotes.1 with quote | literal
  · exact absurd (closing.symm.trans quote) (by decide)
  · exact absurd (closing.symm.trans literal) (by decide)

theorem Quotes.not_cuts {depth : Int} {step : Token × Scanner} (quotes : Quotes depth step) : ¬ Cuts step := by
  rintro ⟨separator, -⟩
  rcases quotes.1 with quote | literal
  · exact absurd (separator.symm.trans quote) (by decide)
  · exact absurd (separator.symm.trans literal) (by decide)

/-- Outside strings the scanner stays where it is over every character but a quote and a parenthesis. -/
theorem step_plain {c : Char} (outside : s.inString = false) (notQuote : c ≠ '"') (notOpening : c ≠ '(')
    (notClosing : c ≠ ')') : s.step c = (if c = ',' then .separator else .text, s) := by
  simp only [step, outside, notQuote, notOpening, notClosing, Bool.false_eq_true, if_false]
  split <;> rfl

theorem step_literal {c : Char} (notQuote : c ≠ '"') (notBackslash : c ≠ '\\') (depth : Int) :
    step ⟨true, false, depth⟩ c = (.literal, ⟨true, false, depth⟩) := by
  simp [step, notQuote, notBackslash]

theorem step_closing {depth : Int} (inside : 0 ≤ depth) :
    (nested (depth + 1)).step ')' = (.closing, nested depth) := by
  have deeper : 0 < depth + 1 := by omega
  simp [step, nested, deeper]

theorem reads_items {items : List Item} (proper : ∀ item ∈ items, item.Proper) (depth : Int) :
    Reads (Within depth) ⟨true, false, depth⟩ (items.flatMap Item.spelling) ⟨true, false, depth⟩ := by
  induction items with
  | nil => exact .nil
  | cons item items ih =>
    have rest := ih fun other mem => proper other (by simp [mem])
    rw [List.flatMap_cons]
    refine .append ?_ rest
    cases item with
    | plain c =>
      obtain ⟨notQuote, notBackslash⟩ := proper (.plain c) (by simp)
      refine .cons ?_ ?_ <;> rw [step_literal notQuote notBackslash]
      · exact ⟨rfl, rfl⟩
      · exact .nil
    | escaped c =>
      refine .cons ⟨rfl, rfl⟩ (.cons ⟨rfl, rfl⟩ .nil)

/-- The scanner comes out of a complete literal as it went in. -/
theorem reads_quoted {items : List Item} (proper : ∀ item ∈ items, item.Proper) (depth : Int) :
    Reads (Quotes depth) (nested depth) (quoted items) (nested depth) :=
  have inner := (reads_items proper depth).mono fun _ within => within.quotes
  .cons ⟨.inl rfl, rfl⟩ (inner.append (.cons ⟨.inl rfl, rfl⟩ .nil))

end Scanner

/-- The scanner comes out of a balanced text as it went in, and never above the depth it had there. -/
theorem Balanced.reads {t : Text} (balanced : Balanced t) (depth : Int) (inside : 0 ≤ depth) :
    Scanner.Reads (fun step => depth ≤ step.2.depth) (.nested depth) t (.nested depth) := by
  induction balanced generalizing depth with
  | nil => exact .nil
  | @char c t notQuote notOpening notClosing _ ih =>
    refine .cons ?_ ?_ <;> rw [Scanner.step_plain rfl notQuote notOpening notClosing]
    · exact Int.le_refl depth
    · exact ih depth inside
  | string proper _ ih =>
    have string := (Scanner.reads_quoted proper depth).mono fun step quotes => Int.le_of_eq quotes.2.symm
    exact string.append (ih depth inside)
  | @group inner t _ _ ihInner ih =>
    have opens : (Scanner.nested depth).step '(' = (.opening, .nested (depth + 1)) := rfl
    have deep : Scanner.Reads (fun step => depth ≤ step.2.depth) (.nested (depth + 1)) inner (.nested (depth + 1)) :=
      (ihInner (depth + 1) (by omega)).mono fun step deeper => by omega
    refine .cons (by rw [opens]; show depth ≤ depth + 1; omega) ?_
    rw [opens]
    refine deep.append (.cons ?_ ?_) <;> rw [Scanner.step_closing inside]
    · exact Int.le_refl depth
    · exact ih depth inside

/-- In parentheses the scanner neither closes the outermost one nor cuts a balanced text. -/
theorem Balanced.reads_nested {t : Text} (balanced : Balanced t) :
    Scanner.Reads (fun step => ¬ Scanner.Closes step ∧ ¬ Scanner.Cuts step) (.nested 1) t (.nested 1) := by
  refine (balanced.reads 1 (by decide)).mono fun step deep => ?_
  have nested : step.2.depth ≠ 0 := by omega
  exact ⟨fun closes => nested closes.2, fun cuts => nested cuts.2⟩

theorem Argument.reads {t : Text} (argument : Argument t) :
    Scanner.Reads (fun step => ¬ Scanner.Cuts step) .start t .start := by
  induction argument with
  | nil => exact .nil
  | @char c t notQuote notOpening notClosing notComma _ ih =>
    refine .cons ?_ ?_ <;> rw [Scanner.step_plain rfl notQuote notOpening notClosing, if_neg notComma]
    · exact fun cuts => absurd cuts.1 (by decide)
    · exact ih
  | string proper _ ih =>
    exact ((Scanner.reads_quoted proper 0).mono fun step quotes => quotes.not_cuts).append ih
  | @group inner t nested _ ih =>
    have inside : Scanner.Reads (fun step => ¬ Scanner.Cuts step) (.nested 1) inner (.nested 1) :=
      nested.reads_nested.mono fun step still => still.2
    refine .cons (fun cuts => absurd cuts.1 (by decide)) (inside.append (.cons ?_ ih))
    exact fun cuts => absurd cuts.1 (by decide)

/-- A part of a text in which the outermost parenthesis does not close belongs to what it closes. -/
theorem balanced?_append {s s' : Scanner} {t : Text}
    (reads : Scanner.Reads (fun step => ¬ Scanner.Closes step) s t s') (rest : Text) :
    balanced? s (t ++ rest) = (balanced? s' rest).map fun (inner, after) => (t ++ inner, after) := by
  induction t generalizing s with
  | nil =>
    obtain ⟨rfl, -⟩ := reads
    cases eq : balanced? s rest <;> simp [eq]
  | cons c t ih =>
    have first : ¬ ((s.step c).1 = .closing ∧ (s.step c).2.depth = 0) := reads.2 _ (by simp [Scanner.trace])
    have later := ih (s := (s.step c).2) ⟨reads.1, fun step mem => reads.2 step (by simp [Scanner.trace, mem])⟩
    simp only [List.cons_append, balanced?]
    rw [if_neg first, later]
    cases balanced? s' rest <;> rfl

theorem Balanced.balanced? {inner : Text} (balanced : Balanced inner) (after : Text) :
    balanced? (.nested 1) (inner ++ ')' :: after) = some (inner, after) := by
  rw [balanced?_append (balanced.reads_nested.mono fun step still => still.1)]
  have closing : Code.balanced? (.nested 1) (')' :: after) = some ([], after) := rfl
  rw [closing]
  simp

/-- Puts a text in front of the first of some pieces. -/
def prepend (t : Text) : List Text → List Text
  | [] => [t]
  | piece :: others => (t ++ piece) :: others

/-- A part of a text without a comma of its own belongs to the first piece. -/
theorem pieces_append {s s' : Scanner} {t : Text}
    (reads : Scanner.Reads (fun step => ¬ Scanner.Cuts step) s t s') (rest : Text) :
    pieces s (t ++ rest) = prepend t (pieces s' rest) := by
  induction t generalizing s with
  | nil =>
    obtain ⟨rfl, -⟩ := reads
    cases eq : pieces s rest with
    | nil => exact absurd eq (pieces_ne_nil s rest)
    | cons piece others => simp [eq, prepend]
  | cons c t ih =>
    have first : ¬ ((s.step c).1 = .separator ∧ (s.step c).2.depth = 0) := reads.2 _ (by simp [Scanner.trace])
    have later := ih (s := (s.step c).2) ⟨reads.1, fun step mem => reads.2 step (by simp [Scanner.trace, mem])⟩
    simp only [List.cons_append, pieces]
    rw [if_neg first, later]
    cases pieces s' rest <;> rfl

/-- Texts that are read one after the other, with a comma between them, are the pieces of the whole: none
    has a comma of its own outside strings and parentheses, and all but the last are read to such a place. -/
inductive Segments : Scanner → List Text → Prop
  | last {s s' : Scanner} {t : Text} (reads : Scanner.Reads (fun step => ¬ Scanner.Cuts step) s t s') : Segments s [t]
  | cons {s s' : Scanner} {t : Text} {ts : List Text} (reads : Scanner.Reads (fun step => ¬ Scanner.Cuts step) s t s')
      (outside : s'.inString = false) (outermost : s'.depth = 0) (rest : Segments s' ts) : Segments s (t :: ts)

theorem Segments.ne_nil {s : Scanner} {ts : List Text} (segments : Segments s ts) : ts ≠ [] := by
  cases segments <;> simp

theorem Segments.pieces_intercalate {s : Scanner} {ts : List Text} (segments : Segments s ts) :
    pieces s ([','].intercalate ts) = ts := by
  induction segments with
  | last reads => simpa [pieces, prepend] using pieces_append reads []
  | @cons s s' t ts reads outside outermost rest ih =>
    cases ts with
    | nil => exact absurd rfl rest.ne_nil
    | cons u us =>
      have comma := Scanner.step_plain outside (show ',' ≠ '"' by decide) (by decide) (by decide)
      have cut : pieces s' (',' :: [','].intercalate (u :: us)) = [] :: pieces s' ([','].intercalate (u :: us)) := by
        simp [pieces, comma, outermost]
      rw [List.intercalate_cons_cons, List.append_assoc, List.singleton_append, pieces_append reads, cut, ih,
        prepend, List.append_nil]

/-- Arguments with commas between them are the pieces of the whole. -/
theorem segments_of_arguments {ts : List Text} (nonempty : ts ≠ []) (each : ∀ t ∈ ts, Argument t) :
    Segments .start ts := by
  induction ts with
  | nil => exact absurd rfl nonempty
  | cons t ts ih =>
    obtain ⟨first, others⟩ := List.forall_mem_cons.mp each
    cases ts with
    | nil => exact .last first.reads
    | cons u us => exact .cons first.reads rfl rfl (ih (by simp) others)

/-- Texts with commas between them are blank only if there is one, which is blank. -/
theorem blank_intercalate_iff {ts : List Text} (nonempty : ts ≠ []) :
    Text.blank ([','].intercalate ts) ↔ ts.map Text.trim = [[]] := by
  cases ts with
  | nil => exact absurd rfl nonempty
  | cons t ts =>
    cases ts with
    | nil => simp [Text.trim_eq_nil_iff]
    | cons u us =>
      have comma : isBlank ',' = false := by decide
      rw [List.intercalate_cons_cons, Text.blank, List.all_append, List.all_append, List.all_cons, comma]
      simp

/-- The arguments that a text lists are those that were written, without the white space around
    them. A text that lists one empty argument lists none. -/
theorem arguments_intercalate {ts : List Text} (each : ∀ t ∈ ts, Argument t)
    (written : ts.map Text.trim ≠ [[]]) : arguments ([','].intercalate ts) = ts.map Text.trim := by
  cases ts with
  | nil => rfl
  | cons t ts =>
    have visible := fun white => written ((blank_intercalate_iff (by simp)).mp white)
    rw [arguments, if_neg visible, (segments_of_arguments (by simp) each).pieces_intercalate]

end PluginAudit.Code
