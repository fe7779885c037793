import PluginAudit.Proofs.Code.Strings
import Mathlib

/-!
# The depth of a text

Without its strings (`Unquoted`) a text has a surplus of opening parentheses. The scanner follows it from the depth
that it starts at, but does not go below zero: its depth is the surplus, lifted by as much as the lowest surplus on
the way is below zero (`run_nested_eq`). So the depth can be counted, and a parenthesis that closes nothing changes
nothing (`closedForm_of_short`).
-/
namespace PluginAudit.Code

/-- How a text ends: outside strings, inside one, or inside one with a backslash that takes what follows. -/
inductive Ending
  | outside
  | inside
  | taking
deriving DecidableEq

/-- What is left of a text without its strings, and how the text ends. A string opens at a quote outside
    others, a backslash inside takes the next character, and the first quote that is not taken closes it. -/
inductive Unquoted : Text → Text → Ending → Prop
  | nil : Unquoted [] [] .outside
  | char {c : Char} {t left : Text} {ending : Ending} (notQuote : c ≠ '"') (rest : Unquoted t left ending) :
      Unquoted (c :: t) (c :: left) ending
  | string {items : List Item} {t left : Text} {ending : Ending} (proper : ∀ item ∈ items, item.Proper)
      (rest : Unquoted t left ending) : Unquoted (quoted items ++ t) left ending
  | inside {items : List Item} (proper : ∀ item ∈ items, item.Proper) :
      Unquoted ('"' :: items.flatMap Item.spelling) [] .inside
  | taking {items : List Item} (proper : ∀ item ∈ items, item.Proper) :
      Unquoted ('"' :: (items.flatMap Item.spelling ++ ['\\'])) [] .taking

/-- Takes the strings out of a text, and says how the text ends. -/
def unquote (t : Text) : Text × Ending :=
  match t with
  | [] => ([], .outside)
  | c :: t =>
    if c = '"' then
      match h : readItems t with
      | (items, none) => ([], if items.getLast? = some (.plain '\\') then .taking else .inside)
      | (_, some after) =>
        have := length_after_readItems h
        unquote after
    else (c :: (unquote t).1, (unquote t).2)
termination_by t.length

variable {t left : Text} {ending : Ending} {items : List Item} {c : Char} {depth : Int}

theorem readItems_unended (proper : ∀ item ∈ items, item.Proper) :
    readItems (items.flatMap Item.spelling) = (items, none) ∧
    readItems (items.flatMap Item.spelling ++ ['\\']) = (items ++ [.plain '\\'], none) := by
  induction items with
  | nil => exact ⟨rfl, rfl⟩
  | cons item items ih =>
    obtain ⟨first, others⟩ := List.forall_mem_cons.mp proper
    obtain ⟨inside, taking⟩ := ih others
    cases item with
    | plain c =>
      obtain ⟨notQuote, notBackslash⟩ := first
      simp [Item.spelling, readItems, notBackslash, inside, taking]
    | escaped c => simp [Item.spelling, readItems, inside, taking]

theorem unquote_ended {after : Text} (read : readItems t = (items, some after)) : unquote ('"' :: t) = unquote after := by
  rw [unquote, if_pos rfl]
  split
  next read' => simp [read] at read'
  next after' read' =>
    obtain ⟨-, eq⟩ := Prod.mk.inj (read.symm.trans read')
    rw [Option.some.inj eq]

theorem unquote_unended (read : readItems t = (items, none)) :
    unquote ('"' :: t) = ([], if items.getLast? = some (.plain '\\') then .taking else .inside) := by
  rw [unquote, if_pos rfl]
  split
  next items' read' => rw [(Prod.mk.inj (read.symm.trans read')).1]
  next read' => simp [read] at read'

theorem Unquoted.unquote_eq (unquoted : Unquoted t left ending) : unquote t = (left, ending) := by
  induction unquoted with
  | nil => rw [unquote]
  | char notQuote _ ih => rw [unquote, if_neg notQuote, ih]
  | @string items t _ _ proper _ ih =>
    have read := readItems_spelling proper t
    have written : quoted items ++ t = '"' :: (items.flatMap Item.spelling ++ '"' :: t) := by simp [quoted]
    rw [written, unquote_ended read, ih]
  | @inside items proper =>
    have last : items.getLast? ≠ some (.plain '\\') := by
      intro last
      exact absurd rfl (proper _ (List.mem_of_getLast? last)).2
    rw [unquote_unended (readItems_unended proper).1, if_neg last]
  | taking proper =>
    rw [unquote_unended (readItems_unended proper).2, if_pos List.getLast?_concat]

/-- The scanner after a text that ends in a given way, at a given depth. -/
def Ending.scanner (ending : Ending) (depth : Int) : Scanner := ⟨ending ≠ .outside, ending = .taking, depth⟩

def depthAfter (depth : Int) (c : Char) : Int :=
  if c = '(' then depth + 1 else if c = ')' ∧ 0 < depth then depth - 1 else depth

theorem step_outside (notQuote : c ≠ '"') :
    ((Ending.outside.scanner depth).step c).2 = Ending.outside.scanner (depthAfter depth c) := by
  by_cases opening : c = '('
  · subst opening
    rfl
  by_cases closing : c = ')'
  · subst closing
    by_cases deep : 0 < depth <;> simp [Scanner.step, depthAfter, Ending.scanner, deep]
  · rw [Scanner.step_plain rfl notQuote opening closing]
    simp [depthAfter, opening, closing]

/-- One more character is part of a string or stands outside of all, and the scanner sees which. -/
theorem Unquoted.concat (unquoted : Unquoted t left ending) (c : Char) (depth : Int) :
    (∃ ending', Unquoted (t ++ [c]) left ending' ∧ ((ending.scanner depth).step c).2 = ending'.scanner depth) ∨
    ending = .outside ∧ Unquoted (t ++ [c]) (left ++ [c]) .outside ∧
      ((ending.scanner depth).step c).2 = Ending.outside.scanner (depthAfter depth c) := by
  induction unquoted with
  | nil =>
    by_cases quote : c = '"'
    · subst quote
      have noItems : ∀ item ∈ ([] : List Item), item.Proper := by simp
      exact .inl ⟨.inside, .inside noItems, rfl⟩
    · exact .inr ⟨rfl, .char quote .nil, step_outside quote⟩
  | char notQuote _ ih =>
    rcases ih with ⟨ending', unquoted, step⟩ | ⟨outside, unquoted, step⟩
    · exact .inl ⟨ending', .char notQuote unquoted, step⟩
    · exact .inr ⟨outside, .char notQuote unquoted, step⟩
  | string proper _ ih =>
    rw [List.append_assoc]
    rcases ih with ⟨ending', unquoted, step⟩ | ⟨outside, unquoted, step⟩
    · exact .inl ⟨ending', .string proper unquoted, step⟩
    · exact .inr ⟨outside, .string proper unquoted, step⟩
  | @inside items proper =>
    left
    by_cases quote : c = '"'
    · subst quote
      exact ⟨.outside, by simpa [quoted] using Unquoted.string proper .nil, rfl⟩
    by_cases backslash : c = '\\'
    · subst backslash
      exact ⟨.taking, .taking proper, rfl⟩
    · have proper' : ∀ item ∈ items ++ [.plain c], item.Proper := by
        simpa [or_imp, forall_and] using And.intro proper ⟨quote, backslash⟩
      refine ⟨.inside, by simpa [Item.spelling] using Unquoted.inside proper', ?_⟩
      simp [Ending.scanner, Scanner.step, quote, backslash]
  | @taking items proper =>
    left
    have proper' : ∀ item ∈ items ++ [.escaped c], item.Proper :=
      List.forall_mem_append.mpr ⟨proper, List.forall_mem_singleton.mpr trivial⟩
    exact ⟨.inside, by simpa [Item.spelling] using Unquoted.inside proper', rfl⟩

theorem unquoted_unquote (t : Text) : Unquoted t (unquote t).1 (unquote t).2 := by
  have reads : ∃ left ending, Unquoted t left ending := by
    induction t using List.reverseRecOn with
    | nil => exact ⟨_, _, .nil⟩
    | append_singleton t c ih =>
      obtain ⟨left, ending, unquoted⟩ := ih
      rcases unquoted.concat c 0 with ⟨ending', more, -⟩ | ⟨-, more, -⟩
      · exact ⟨_, _, more⟩
      · exact ⟨_, _, more⟩
  obtain ⟨left, ending, unquoted⟩ := reads
  rw [unquoted.unquote_eq]
  exact unquoted

/-- Every text has its strings in one way only. -/
theorem unquoted_iff : Unquoted t left ending ↔ unquote t = (left, ending) := by
  constructor
  · exact Unquoted.unquote_eq
  · intro eq
    have unquoted := unquoted_unquote t
    rwa [eq] at unquoted

/-- How many more parentheses open than close in a text, strings aside. -/
def surplus (t : Text) : Int := (unquote t).1.count '(' - (unquote t).1.count ')'

/-- The lowest value that a count of parentheses from a depth on has over the beginnings of a text. -/
def lowest (depth : Int) (t : Text) : Int :=
  (Finset.range (t.length + 1)).inf' ⟨0, by simp⟩ fun k => depth + surplus (t.take k)

theorem lowest_nil (depth : Int) : lowest depth [] = depth := by
  simp [lowest, surplus, unquote]

theorem lowest_concat (depth : Int) (t : Text) (c : Char) :
    lowest depth (t ++ [c]) = min (lowest depth t) (depth + surplus (t ++ [c])) := by
  have whole : (t ++ [c]).take (t.length + 1) = t ++ [c] := List.take_of_length_le (by simp)
  have beginnings : ∀ k ∈ Finset.range (t.length + 1), depth + surplus ((t ++ [c]).take k) = depth + surplus (t.take k) := by
    intro k mem
    rw [List.take_append_of_le_length (Nat.le_of_lt_succ (Finset.mem_range.mp mem))]
  have range : Finset.range ((t ++ [c]).length + 1) = insert (t.length + 1) (Finset.range (t.length + 1)) := by
    rw [List.length_append, List.length_singleton, Finset.range_add_one]
  have start : (Finset.range (t.length + 1)).Nonempty := ⟨0, by simp⟩
  simp only [lowest, range]
  rw [Finset.inf'_insert start, whole, Finset.inf'_congr start rfl beginnings, min_comm]

theorem lowest_le (depth : Int) (t : Text) : lowest depth t ≤ depth + surplus t := by
  have whole := Finset.inf'_le (fun k => depth + surplus (t.take k)) (Finset.self_mem_range_succ t.length)
  rwa [List.take_length] at whole

/-- From a depth that is not negative, the scanner is at the surplus, lifted by what the lowest one on the way
    falls short of zero. -/
theorem run_nested_eq (start : 0 ≤ depth) (t : Text) : (Scanner.nested depth).run t =
    (unquote t).2.scanner (depth + surplus t - min 0 (lowest depth t)) := by
  induction t using List.reverseRecOn with
  | nil =>
    have zero : min 0 depth = 0 := min_eq_left start
    simp [lowest_nil, zero, unquote, surplus, Ending.scanner, Scanner.nested]
  | append_singleton t c ih =>
    have low := lowest_le depth t
    rw [Scanner.run_append, ih, Scanner.run_cons, Scanner.run_nil, lowest_concat]
    rcases (unquoted_unquote t).concat c (depth + surplus t - min 0 (lowest depth t)) with
      ⟨ending, unquoted, step⟩ | ⟨outside, unquoted, step⟩
    · have same : surplus (t ++ [c]) = surplus t := by simp only [surplus, unquoted.unquote_eq]
      rw [step, unquoted.unquote_eq, same, min_eq_left low]
    · have next : surplus (t ++ [c]) = surplus t + (if c = '(' then 1 else 0) - (if c = ')' then 1 else 0) := by
        simp only [surplus, unquoted.unquote_eq, List.count_append, List.count_singleton, beq_iff_eq]
        split_ifs <;> push_cast <;> omega
      rw [step, unquoted.unquote_eq, next]
      congr 1
      unfold depthAfter
      by_cases opening : c = '('
      · subst opening
        have distinct : '(' ≠ ')' := by decide
        simp only [if_true, distinct, if_false]
        omega
      by_cases closing : c = ')'
      · subst closing
        simp only [if_true, opening, if_false, true_and]
        split_ifs <;> omega
      · simp only [opening, closing, if_false, false_and]
        omega

theorem depth_step_le (s : Scanner) (c : Char) : (s.step c).2.depth ≤ s.depth + 1 := by
  unfold Scanner.step
  split_ifs <;> dsimp only <;> omega

theorem depth_trace_le (s : Scanner) (t : Text) : ∀ step ∈ s.trace t, step.2.depth ≤ s.depth + t.length := by
  induction t generalizing s with
  | nil => simp [Scanner.trace]
  | cons c t ih =>
    have first := depth_step_le s c
    rw [Scanner.trace, List.length_cons]
    refine List.forall_mem_cons.mpr ⟨by omega, fun step mem => ?_⟩
    have later := ih _ step mem
    omega

theorem trace?_of_le {s : Scanner} (short : s.depth + t.length ≤ Scanner.deepest) : s.trace? t = some (s.trace t) := by
  rw [Scanner.trace?, if_pos]
  rw [List.all_eq_true]
  intro step mem
  have deep := depth_trace_le s t step mem
  apply decide_eq_true
  omega

/-- One character more, unless the text nests deeper there than can be counted. -/
def Scanner.step? (s : Scanner) (c : Char) : Option (Token × Scanner) :=
  if (s.step c).2.depth ≤ deepest then some (s.step c) else none

theorem step?_of_lt {s : Scanner} (room : s.depth < Scanner.deepest) (c : Char) : s.step? c = some (s.step c) := by
  have next := depth_step_le s c
  exact if_pos (by omega)

/-- The search for the closing parenthesis, unless the text nests too deeply on the way. -/
def closing? (s : Scanner) : Text → Option (Option (Text × Text))
  | [] => some none
  | c :: t => do
    let (token, s) ← s.step? c
    if token = .closing ∧ s.depth = 0 then return some ([], t)
    else return (← closing? s t).map fun (inner, after) => (c :: inner, after)

/-- The cuts at commas, unless the text nests too deeply on the way. -/
def cuts? (s : Scanner) : Text → Option (List Text)
  | [] => some [[]]
  | c :: t => do
    let (token, s) ← s.step? c
    let later ← cuts? s t
    if token = .separator ∧ s.depth = 0 then return [] :: later
    else
      match later with
      | [] => return [[c]]
      | piece :: rest => return (c :: piece) :: rest

theorem closing?_of_le {s : Scanner} (short : s.depth + t.length ≤ Scanner.deepest) :
    closing? s t = some (balanced? s t) := by
  induction t generalizing s with
  | nil => rfl
  | cons c t ih =>
    rw [List.length_cons] at short
    have next := depth_step_le s c
    have later := ih (s := (s.step c).2) (by omega)
    rw [closing?, step?_of_lt (by omega), balanced?]
    simp only [Option.bind_eq_bind, Option.bind_some, later]
    split <;> rfl

theorem cuts?_of_le {s : Scanner} (short : s.depth + t.length ≤ Scanner.deepest) : cuts? s t = some (pieces s t) := by
  induction t generalizing s with
  | nil => rfl
  | cons c t ih =>
    rw [List.length_cons] at short
    have next := depth_step_le s c
    have later := ih (s := (s.step c).2) (by omega)
    rw [cuts?, step?_of_lt (by omega), pieces]
    simp only [Option.bind_eq_bind, Option.bind_some, later]
    split
    · rfl
    · cases pieces (s.step c).2 t <;> rfl

/-- In a text that is shorter than the deepest nesting, the closing parentheses and the commas are found without
    losing count. -/
theorem counted_of_short (short : t.length < Scanner.deepest) :
    (∀ before rest, t = before ++ rest → closing? (.nested 1) rest = some (balanced? (.nested 1) rest)) ∧
    ∀ part, part <:+: t → cuts? .start part = some (pieces .start part) := by
  constructor
  · rintro before rest rfl
    rw [List.length_append] at short
    refine closing?_of_le ?_
    show 1 + (rest.length : Int) ≤ Scanner.deepest
    omega
  · intro part within
    have size := within.length_le
    refine cuts?_of_le ?_
    show 0 + (part.length : Int) ≤ Scanner.deepest
    omega

/-- What the scanner knows after each beginning of a text, from a depth on. -/
structure ClosedForm (depth : Int) (t : Text) : Prop where
  strings : ∀ before left ending, before <+: t → (Unquoted before left ending ↔ unquote before = (left, ending))
  state : ∀ before, before <+: t → (Scanner.nested depth).run before =
    ⟨(unquote before).2 ≠ .outside, (unquote before).2 = .taking, depth + surplus before - min 0 (lowest depth before)⟩
  literal : ∀ before c after, t = before ++ c :: after →
    ((((Scanner.nested depth).run before).step c).1 = .literal ↔
      (unquote before).2 ≠ .outside ∧ (unquote (before ++ [c])).2 ≠ .outside)
  nonnegative : ∀ before, before <+: t → 0 ≤ ((Scanner.nested depth).run before).depth
  counted : (Scanner.nested depth).trace? t = some ((Scanner.nested depth).trace t)
  stray : ∀ before after, t = before ++ ')' :: after → ((Scanner.nested depth).run before).isTopLevel →
    ((Scanner.nested depth).run before).step ')' = (.text, (Scanner.nested depth).run before) ∧
    (Scanner.nested depth).run t = (Scanner.nested depth).run (before ++ after)
  settled : ∀ before, before <+: t → ((Scanner.nested depth).run before).Settled

theorem step_literal_iff (s : Scanner) (c : Char) :
    (s.step c).1 = .literal ↔ s.inString ∧ (s.step c).2.inString := by
  unfold Scanner.step
  split_ifs <;> simp_all

theorem step_stray {s : Scanner} (topLevel : s.isTopLevel) : s.step ')' = (.text, s) := by
  obtain ⟨outside, level⟩ := (Bool.and_eq_true ..).mp topLevel
  have zero : s.depth = 0 := by simpa using level
  have outside' : s.inString = false := by simpa using outside
  simp [Scanner.step, outside', zero]

/-- From a depth that is not negative, every text that is too short to nest deeper than can be counted is read
    by the closed form. -/
theorem closedForm_of_short (start : 0 ≤ depth) (short : t.length < Scanner.deepest - depth) : ClosedForm depth t where
  strings := fun _ _ _ _ => unquoted_iff
  state := fun before _ => run_nested_eq start before
  literal := fun before c _ _ => by
    have next : (((Scanner.nested depth).run before).step c).2 = (Scanner.nested depth).run (before ++ [c]) := by
      rw [Scanner.run_append, Scanner.run_cons, Scanner.run_nil]
    rw [step_literal_iff, next, run_nested_eq start, run_nested_eq start]
    simp [Ending.scanner]
  nonnegative := fun before _ => by
    have low := lowest_le depth before
    rw [run_nested_eq start]
    show 0 ≤ depth + surplus before - min 0 (lowest depth before)
    omega
  counted := by
    have here : (Scanner.nested depth).depth = depth := rfl
    exact trace?_of_le (by omega)
  stray := by
    rintro before after rfl topLevel
    have step := step_stray topLevel
    refine ⟨step, ?_⟩
    rw [Scanner.run_append, Scanner.run_append, Scanner.run_cons, step]
  settled := fun before _ => (Scanner.settled_nested depth).run before

/-- In `)("(\")"))((`, the first and the last closing parenthesis close nothing, and those in the string do not count. -/
theorem closedForm_stray : (0 : Int) ≤ 0 ∧ ((lit ")(\"(\\\")\"))((").length : Int) < Scanner.deepest - 0 ∧
    ClosedForm 0 (lit ")(\"(\\\")\"))((") ∧ surplus (lit ")(\"(\\\")\"))((") = 0 ∧
    lowest 0 (lit ")(\"(\\\")\"))((") = -2 ∧ ((Scanner.nested 0).run (lit ")(\"(\\\")\"))((")).depth = 2 := by
  have short : ((lit ")(\"(\\\")\"))((").length : Int) < Scanner.deepest - 0 := by decide
  exact ⟨by decide, short, closedForm_of_short (by decide) short, by cbv, by cbv, by decide⟩

end PluginAudit.Code
