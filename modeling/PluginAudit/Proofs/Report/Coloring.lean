import PluginAudit.Proofs.Report.Page

/-!
# Colors and nothing else

A search for escape codes cannot go wrong where a text has no escape character: the codes that a renderer adds are
complete, so what is between them is kept, even if it looks like the rest of a code (`Uncolors`). Hence a colored
page is the plain page with codes in it (`coloring_adds_codes`).
-/
namespace PluginAudit

namespace Style

/-- Whether a character can stand in the parameters of an escape code. -/
def isParameter (c : Char) : Bool := c.isDigit || c == ';'

/-- What follows an escape code at the start of a text. -/
def afterCode? : Text → Option Text
  | '\x1b' :: '[' :: t =>
    match t.dropWhile isParameter with
    | 'm' :: rest => some rest
    | _ => none
  | _ => none

theorem length_after_code {t rest : Text} (code : afterCode? t = some rest) : rest.length < t.length := by
  unfold afterCode? at code
  split at code
  next t =>
    split at code
    next found =>
      have suffix := congrArg List.length found
      have shorter := (List.dropWhile_sublist isParameter (l := t)).length_le
      obtain rfl := Option.some.inj code
      simp only [List.length_cons] at suffix ⊢
      omega
    next => cases code
  next => cases code

/-- A text without the escape codes in it. -/
def uncolored (t : Text) : Text :=
  match t with
  | [] => []
  | c :: t =>
    match h : afterCode? (c :: t) with
    | some rest =>
      have := length_after_code h
      uncolored rest
    | none => c :: uncolored t
termination_by t.length
decreasing_by
  · exact length_after_code h
  · exact Nat.lt_succ_self _

variable {c : Char} {t parameters plain plain' styled styled' : Text}

theorem code_append (parameters rest : Text) :
    code parameters ++ rest = '\x1b' :: '[' :: (parameters ++ 'm' :: rest) := by
  simp [code]

theorem afterCode?_code (each : ∀ c ∈ parameters, isParameter c) (rest : Text) :
    afterCode? (code parameters ++ rest) = some rest := by
  have dropped : (parameters ++ 'm' :: rest).dropWhile isParameter = 'm' :: rest := by
    rw [List.dropWhile_append_of_pos each]
    rfl
  simp only [code_append, afterCode?, dropped]

theorem afterCode?_of_ne (other : c ≠ '\x1b') (t : Text) : afterCode? (c :: t) = none := by
  unfold afterCode?
  split
  next heads => exact absurd (List.cons.inj heads).1 other
  next => rfl

/-- Deleting the escape codes from a part of a text leaves a plain text, whatever follows it. -/
def Uncolors (styled plain : Text) : Prop := ∀ rest, uncolored (styled ++ rest) = plain ++ uncolored rest

theorem Uncolors.nil : Uncolors [] [] := fun _ => rfl

theorem Uncolors.append (first : Uncolors styled plain) (second : Uncolors styled' plain') :
    Uncolors (styled ++ styled') (plain ++ plain') := by
  intro rest
  rw [List.append_assoc, first, second, List.append_assoc]

theorem Uncolors.cons (other : c ≠ '\x1b') (rest : Uncolors styled plain) : Uncolors (c :: styled) (c :: plain) := by
  intro later
  rw [List.cons_append, uncolored]
  split
  next found =>
    rw [afterCode?_of_ne other] at found
    cases found
  next => rw [rest, List.cons_append]

theorem Uncolors.free (free : '\x1b' ∉ t) : Uncolors t t := by
  induction t with
  | nil => exact .nil
  | cons c t ih =>
    obtain ⟨other, later⟩ := not_or.mp (List.mem_cons.not.mp free)
    exact .cons (Ne.symm other) (ih later)

theorem Uncolors.code (each : parameters.all isParameter) : Uncolors (code parameters) [] := by
  intro rest
  have found := afterCode?_code (List.all_eq_true.mp each) rest
  rw [code_append] at found ⊢
  rw [uncolored]
  split
  next rest' found' =>
    obtain rfl := Option.some.inj (found'.symm.trans found)
    rfl
  next none => cases none.symm.trans found

theorem isParameter_of_color (style : Style) : ∀ color ∈ style.color?, color.all isParameter := by
  cases style <;> decide

theorem Uncolors.colored (style : Style) (free : '\x1b' ∉ t) : Uncolors (Renderer.colored style t) t := by
  unfold Renderer.colored
  split
  next => exact .free free
  next color found =>
    have bold : Uncolors (Style.code (lit "1")) [] := .code (by decide)
    have color : Uncolors (Style.code color) [] := .code (isParameter_of_color style color found)
    have uncolor : Uncolors (Style.code (lit "39")) [] := .code (by decide)
    have reset : Uncolors (Style.code (lit "0")) [] := .code (by decide)
    simpa using (((bold.append color).append (.free free)).append uncolor).append reset

theorem Uncolors.lines {α : Type} (items : List α) {styled plain : α → Text}
    (each : ∀ item ∈ items, Uncolors (styled item) (plain item)) :
    Uncolors (printLines (items.map styled)) (printLines (items.map plain)) := by
  induction items with
  | nil => exact .nil
  | cons item items ih =>
    obtain ⟨first, others⟩ := List.forall_mem_cons.mp each
    exact (first.append (.free (by decide))).append (ih others)

theorem Uncolors.eq (uncolors : Uncolors styled plain) : uncolored styled = plain := by
  have whole := uncolors []
  rwa [List.append_nil, uncolored, List.append_nil] at whole

end Style

open Style

/-- A finding whose place and problem have no escape character in them. -/
def Finding.Uncoded (f : Finding) : Prop := '\x1b' ∉ f.locator.text ∧ '\x1b' ∉ f.problem.message

instance (f : Finding) : Decidable f.Uncoded := inferInstanceAs (Decidable (_ ∧ _))

variable {f : Finding}

theorem Report.uncolors_line (free : f.Uncoded) : Uncolors (Report.line .colored f) (Report.line .plain f) := by
  have entry : ∀ {bullet} style, '\x1b' ∉ bullet →
      Uncolors (Report.entry .colored bullet style f) (Report.entry .plain bullet style f) := by
    intro bullet style visible
    have mark := Uncolors.cons (c := ' ') (by decide) (.colored style visible)
    have place := Uncolors.cons (c := ' ') (by decide) (.colored .locator free.1)
    exact ((mark.append place).append (.free (by decide))).append (.free free.2)
  unfold Report.line
  split
  · exact entry .bullet (by decide)
  · exact entry .warning (by decide)

theorem Report.uncolors_heading (r : Report) : Uncolors (r.heading .colored) (r.heading .plain) := by
  unfold Report.heading
  split
  · exact .colored .passed (by decide)
  · exact .colored .failed (by decide)

theorem Report.uncolored_page {r : Report} (free : ∀ f ∈ r.findings, f.Uncoded) :
    uncolored (r.page .colored) = r.page .plain := by
  have lines := Uncolors.lines (r.errors ++ r.warnings) fun f mem =>
    uncolors_line (free f (r.errorsFirst.once.mem_iff.mp mem))
  have page : Uncolors (r.page .colored) (r.page .plain) := by
    rw [Report.page, Report.page, pageLines_eq, pageLines_eq]
    exact (r.uncolors_heading.append (.free (by decide))).append lines
  exact page.eq

namespace RecipeBook

theorem uncolors_entry (free : f.Uncoded) : Uncolors (entry .colored f) (entry .plain f) := by
  have separator : '\x1b' ∉ lit ": " := by decide
  have text : Uncolors f.text f.text := .free (by simp only [Finding.text, List.mem_append, separator, free.1, free.2, or_self,
    not_false_eq_true])
  have spaced := Uncolors.cons (c := ' ') (by decide) text
  unfold entry
  split
  · exact (Uncolors.colored .failed (by decide)).append spaced
  · exact (Uncolors.colored .warning (by decide)).append spaced

theorem uncolors_tally (book : RecipeBook) : Uncolors (book.tally .colored) (book.tally .plain) := by
  have count : ∀ n, Uncolors (Renderer.colored .count (Text.ofNat n)) (Text.ofNat n) := fun n =>
    .colored .count (Text.not_mem_ofNat (by decide) n)
  unfold tally
  dsimp only
  refine .append (.append ?_ (count _)) (.free (by decide))
  split
  · exact ((Uncolors.colored .failed (by decide)).append (.cons (by decide) (count _))).append (.free (by decide))
  · exact ((Uncolors.colored .passed (by decide)).append (.cons (by decide) (count _))).append (.free (by decide))

theorem uncolored_page {book : RecipeBook} (free : ∀ f ∈ book.findings, f.Uncoded) :
    uncolored (book.page .colored) = book.page .plain := by
  have lines := Uncolors.lines book.findings fun f mem => uncolors_entry (free f mem)
  have tally := Uncolors.lines [()] fun _ _ => book.uncolors_tally
  have page := lines.append tally
  simp only [printLines, ← List.flatMap_append] at page
  exact page.eq

end RecipeBook

/-- The printed report on what was raised has one line for each finding, and says if one was an error. -/
structure Report.Lists (render : Renderer) (raised : List Finding) (page : Text) : Prop where
  lines : ∃ heading listed, ErrorsFirst raised listed ∧ page = printLines (heading :: listed.map (line render))
  failed : render .failed (lit "Validation failed:") <+: page ↔ ∃ f ∈ raised, f.isError

/-- The printed recipe book has one line for each finding and a tally, which says if one was an error. -/
def RecipeBook.Lists (render : Renderer) (raised : List Finding) (page : Text) : Prop :=
  ∃ tally, page = printLines (raised.map (entry render) ++ [tally]) ∧
    (render .failed (lit "Validation failed:") <+: tally ↔ ∃ f ∈ raised, f.isError)

theorem not_prefix_append {a b : Text} (n : Nat) (within : n ≤ a.length ∧ n ≤ b.length) (differ : a.take n ≠ b.take n)
    (rest : Text) : ¬ a <+: b ++ rest := by
  rintro ⟨later, same⟩
  apply differ
  have begins := congrArg (List.take n) same
  rwa [List.take_append_of_le_length within.1, List.take_append_of_le_length within.2] at begins

theorem Report.lists_page {render : Renderer} (known : render = .plain ∨ render = .colored) (r : Report) :
    Lists render r.findings (r.page render) where
  lines := ⟨r.heading render, r.errors ++ r.warnings, r.errorsFirst, by rw [page, pageLines_eq]⟩
  failed := by
    refine r.failed_prefix_page_iff fun rest => ?_
    rcases known with rfl | rfl
    · exact not_prefix_append 12 (by decide) (by decide) rest
    · exact not_prefix_append 7 (by decide) (by decide) rest

theorem RecipeBook.lists_page {render : Renderer} (known : render = .plain ∨ render = .colored) (book : RecipeBook) :
    Lists render book.findings (book.page render) := by
  refine ⟨book.tally render, rfl, book.failed_prefix_tally_iff fun rest => ?_⟩
  rcases known with rfl | rfl
  · exact not_prefix_append 12 (by decide) (by decide) rest
  · exact not_prefix_append 7 (by decide) (by decide) rest

/-- Colors add nothing to a printed report or recipe book but escape codes, if there are none in what was found.
    With and without them every finding is listed once: in a report the errors first and each kind as it was
    raised, in a recipe book all as they were raised. It is said to have failed exactly if an error was raised. -/
theorem coloring_adds_codes :
    (∀ steps : List Report.Step,
      ((∀ f ∈ steps.flatMap Report.Step.raised, f.Uncoded) →
        uncolored ((Report.ofSteps steps).page .colored) = (Report.ofSteps steps).page .plain) ∧
      ∀ render : Renderer, render = .plain ∨ render = .colored →
        Report.Lists render (steps.flatMap Report.Step.raised) ((Report.ofSteps steps).page render)) ∧
    ∀ book : RecipeBook,
      ((∀ f ∈ book.findings, f.Uncoded) → uncolored (book.page .colored) = book.page .plain) ∧
      ∀ render : Renderer, render = .plain ∨ render = .colored →
        RecipeBook.Lists render book.findings (book.page render) := by
  constructor
  · intro steps
    rw [← Report.findings_ofSteps]
    exact ⟨Report.uncolored_page, fun render known => Report.lists_page known _⟩
  · intro book
    exact ⟨RecipeBook.uncolored_page, fun render known => RecipeBook.lists_page known book⟩

/-- What was found may look like parts of codes. -/
theorem coloring_adds_codes_fragments :
    let steps : List Report.Step := [.push (.warning (.artifact (lit "[1m")) (.permission (.noSources (lit "38;2;5m")))),
      .extend [.error (.record (lit "{m}") 9) (.contract (.unhandledRequests [lit "[", lit "39m"]))]]
    let book : RecipeBook := ⟨1, [.warning (.artifact (lit "a;1m")) (.recipe .reasonNotString)]⟩
    (∀ f ∈ steps.flatMap Report.Step.raised, f.Uncoded) ∧ (∀ f ∈ book.findings, f.Uncoded) ∧
    uncolored ((Report.ofSteps steps).page .colored) = (Report.ofSteps steps).page .plain ∧
    (Report.ofSteps steps).page .plain =
      lit "Validation failed:\n - {m}[9]: no handlers for [, 39m\n ~ [1m: no plugin sources found under 38;2;5m\n" ∧
    (Report.ofSteps steps).page .colored =
      lit "\x1b[1m\x1b[91mValidation failed:\x1b[39m\x1b[0m\n" ++
      lit " \x1b[1m\x1b[38;2;153;153;153m-\x1b[39m\x1b[0m " ++
        lit "\x1b[1m\x1b[38;2;52;101;164m{m}[9]\x1b[39m\x1b[0m: no handlers for [, 39m\n" ++
      lit " \x1b[1m\x1b[38;2;245;121;0m~\x1b[39m\x1b[0m " ++
        lit "\x1b[1m\x1b[38;2;52;101;164m[1m\x1b[39m\x1b[0m: no plugin sources found under 38;2;5m\n" ∧
    uncolored (book.page .colored) = book.page .plain ∧
    book.page .plain = lit "WARN: a;1m: 'reason' should be a string\nValidation OK: 1 recipe(s), 1 warning(s)\n" ∧
    book.page .colored =
      lit "\x1b[1m\x1b[38;2;245;121;0mWARN:\x1b[39m\x1b[0m a;1m: 'reason' should be a string\n" ++
      lit "\x1b[1m\x1b[38;2;78;154;6mValidation OK:\x1b[39m\x1b[0m " ++
        lit "\x1b[1m\x1b[97m1\x1b[39m\x1b[0m recipe(s), \x1b[1m\x1b[97m1\x1b[39m\x1b[0m warning(s)\n" := by
  intro steps book
  have raised : ∀ f ∈ steps.flatMap Report.Step.raised, f.Uncoded := by decide +kernel
  have found : ∀ f ∈ book.findings, f.Uncoded := by decide +kernel
  exact ⟨raised, found, (coloring_adds_codes.1 steps).1 raised, by decide +kernel, by decide +kernel,
    (coloring_adds_codes.2 book).1 found, by decide +kernel, by decide +kernel⟩

end PluginAudit
