import PluginAudit.Proofs.Code.Pieces
import PluginAudit.Proofs.Code.Strings

/-!
# Literals of arguments

Every argument of a text is read from the start to a place outside strings, where the literals of what is before and
of what comes after fall apart (`literalItems_append_of_outside`). So the literals of the arguments are those of the
text, and another literal in the place of one changes no argument but the one that it stands in
(`arguments_literals`).
-/
namespace PluginAudit.Code

variable {s : Scanner} {t before : Text} {ts : List Text} {depth : Int} {items : List Item}

/-- The literals of what is before a place outside strings are those of the text up to there. -/
theorem literalItems_append_of_outside (outside : ((Scanner.nested depth).run t).inString = false) (rest : Text) :
    literalItems (t ++ rest) = literalItems t ++ literalItems rest := by
  fun_induction literalsFrom 0 t generalizing depth with
  | case1 =>
    have none : literalItems [] = [] := literalItems_eq_nil (by simp)
    rw [none]
    rfl
  | case2 offset t items read =>
    rw [Scanner.inString_run_unterminated read] at outside
    cases outside
  | case3 offset t items after read =>
    rename_i ih
    have proper := proper_of_readItems read
    rw [Scanner.run_terminated read] at outside
    rw [eq_quoted_of_readItems read, List.append_assoc, literalItems_quoted proper, literalItems_quoted proper,
      ih outside, List.cons_append]
  | case4 offset c t notQuote ih =>
    obtain ⟨token, inner, step, -⟩ := Scanner.step_other depth notQuote
    rw [Scanner.run_cons, step] at outside
    have free : '"' ∉ [c] := by simpa using Ne.symm notQuote
    have skip : ∀ u, literalItems (c :: u) = literalItems u := literalItems_append free
    rw [List.cons_append, skip, skip, ih outside]

/-- Trimming a text that ends outside strings takes no literal from it. -/
theorem literalItems_trim (outside : (Scanner.start.run t).inString = false) :
    literalItems t.trim = literalItems t ∧ (Scanner.start.run t.trim).inString = false := by
  have reads : Scanner.Reads (fun _ => True) .start t (Scanner.start.run t) := ⟨rfl, fun _ _ => trivial⟩
  obtain ⟨s, reads', inside, -⟩ := reads.trim rfl
  have trimmed : (Scanner.start.run t.trim).inString = false := by rw [reads'.1, inside, outside]
  refine ⟨?_, trimmed⟩
  obtain ⟨before, after, white, white', whole⟩ := t.exists_blank_trim_blank
  conv => rhs; rw [whole, List.append_assoc]
  rw [literalItems_append (quote_not_mem_of_blank white), literalItems_append_of_outside trimmed,
    literalItems_eq_nil (quote_not_mem_of_blank white'), List.append_nil]

/-- In a text that is cut where the scanner is outside strings, every part has its own literals. -/
theorem Segments.literalItems_intercalate (segments : Segments s ts) (start : s = .start)
    (outside : (s.run ([','].intercalate ts)).inString = false) :
    (∀ t ∈ ts, (Scanner.start.run t).inString = false) ∧
      ts.flatMap literalItems = literalItems ([','].intercalate ts) := by
  induction segments with
  | last reads =>
    subst start
    rw [List.intercalate_singleton] at outside ⊢
    exact ⟨by simpa using outside, by simp⟩
  | @cons s s' t ts reads outside' outermost rest ih =>
    subst start
    cases ts with
    | nil => exact absurd rfl rest.ne_nil
    | cons u us =>
      have again : s' = .start := by
        have fresh : Scanner.start.Settled := Scanner.settled_nested 0
        have settled := fresh.run t
        rw [reads.1] at settled
        rw [settled.eq_nested outside', outermost]
        rfl
      have comma : (Scanner.start.step ',').2 = .start := rfl
      have closed : (Scanner.start.run t).inString = false := by rw [reads.1, outside']
      rw [List.intercalate_cons_cons, List.append_assoc] at outside ⊢
      rw [Scanner.run_append, reads.1, again, List.singleton_append, Scanner.run_cons, comma] at outside
      obtain ⟨each, whole⟩ := ih again (by rwa [again])
      refine ⟨List.forall_mem_cons.mpr ⟨closed, each⟩, ?_⟩
      rw [List.flatMap_cons, whole, literalItems_append_of_outside closed, literalItems_append (by decide)]

theorem arguments_of_blank (white : t.blank) : arguments t = [] := if_pos white

theorem literalItems_arguments (outside : (Scanner.start.run t).inString = false) :
    (∀ argument ∈ arguments t, (Scanner.start.run argument).inString = false) ∧
      (arguments t).flatMap literalItems = literalItems t := by
  cases visible : t.blank with
  | true =>
    rw [arguments_of_blank visible, literalItems_eq_nil (quote_not_mem_of_blank visible)]
    simp
  | false =>
    have segments := segments_pieces .start t
    obtain ⟨each, whole⟩ := segments.literalItems_intercalate rfl (by rwa [intercalate_pieces])
    rw [intercalate_pieces] at whole
    rw [arguments_of_visible visible]
    constructor
    · intro argument mem
      obtain ⟨piece, cut, rfl⟩ := List.mem_map.mp mem
      exact (literalItems_trim (each piece cut)).2
    · rw [← whole, List.flatMap_map]
      exact List.flatMap_congr fun piece cut => (literalItems_trim (each piece cut)).1

/-- What a literal says, wherever it stands: its value, its unknown escapes, and whether it is terminated. -/
def Literal.content (l : Literal) : Text × List Char × Bool := (l.value, l.unrecognized, l.terminated)

theorem map_content {ls : List Literal} (closed : ∀ l ∈ ls, l.terminated) : ls.map Literal.content =
    (ls.map Literal.items).map fun items => (items.flatMap Item.value, items.filterMap Item.unrecognized?, true) := by
  rw [List.map_map]
  refine List.map_congr_left fun l mem => ?_
  rw [Literal.content, closed l mem]
  rfl

/-- What is before a place in a text determines the pieces up to there, and what is after it the others. -/
theorem exists_pieces_append (s : Scanner) (t : Text) :
    ∃ front last, ∀ rest, pieces s (t ++ rest) = front ++ prepend last (pieces (s.run t) rest) := by
  induction t generalizing s with
  | nil =>
    refine ⟨[], [], fun rest => ?_⟩
    have none : Scanner.Reads (fun step => ¬ Scanner.Cuts step) s [] s := .nil
    exact pieces_append none rest
  | cons c t ih =>
    obtain ⟨front, last, cut⟩ := ih (s.step c).2
    by_cases cuts : Scanner.Cuts (s.step c)
    · refine ⟨[] :: front, last, fun rest => ?_⟩
      have first : pieces s (c :: (t ++ rest)) = [] :: pieces (s.step c).2 (t ++ rest) := if_pos cuts
      rw [List.cons_append, first, cut, Scanner.run_cons, List.cons_append]
    · have first : Scanner.Reads (fun step => ¬ Scanner.Cuts step) s [c] (s.step c).2 := .cons cuts .nil
      have joined : ∀ rest, pieces s (c :: t ++ rest) =
          prepend [c] (front ++ prepend last (pieces (s.run (c :: t)) rest)) := by
        intro rest
        rw [Scanner.run_cons, ← cut]
        exact pieces_append first (t ++ rest)
      cases front with
      | nil =>
        refine ⟨[], c :: last, fun rest => ?_⟩
        rw [joined]
        cases pieces (s.run (c :: t)) rest <;> rfl
      | cons piece front => exact ⟨(c :: piece) :: front, last, joined⟩

/-- Whichever literal stands at a place outside strings, it stands in the same argument, and the other arguments
    are the same. -/
theorem exists_arguments_around (outside : Scanner.start.run before = .nested depth) (after : Text) :
    ∃ front first last others, ∀ items : List Item, (∀ item ∈ items, item.Proper) →
      arguments (before ++ quoted items ++ after) = front ++ (first ++ quoted items ++ last) :: others := by
  obtain ⟨front, first, cut⟩ := exists_pieces_append .start before
  cases later : pieces (.nested depth) after with
  | nil => exact absurd later (pieces_ne_nil _ _)
  | cons last others =>
    refine ⟨front.map Text.trim, first.trimStart, last.trimEnd, others.map Text.trim, fun items proper => ?_⟩
    have string := pieces_append ((Scanner.reads_quoted proper depth).mono fun _ quotes => quotes.not_cuts) after
    have visible : Text.blank (before ++ quoted items ++ after) = false := by
      rw [← Bool.not_eq_true]
      intro white
      exact quote_not_mem_of_blank white (by simp [quoted])
    rw [arguments_of_visible visible, List.append_assoc, cut, outside, string, later, prepend, prepend,
      List.map_append, List.map_cons, ← List.append_assoc, trim_around_quoted]

/-- The literals of a text that does not end inside a string are all terminated, and they are those of its
    arguments, one argument after the other. If another literal stands in the place of one, there are as many
    arguments, and only the one that it stands in is different. -/
theorem arguments_literals (outside : (Scanner.start.run t).inString = false) :
    ((arguments t).flatMap literals).map Literal.content = (literals t).map Literal.content ∧
    (∀ l ∈ literals t, l.terminated) ∧
    ∀ l ∈ literals t, ∃ before after, t = before ++ l.spelling ++ after ∧ before.byteSize = l.start ∧
      ∃ front first last others, arguments t = front ++ (first ++ l.spelling ++ last) :: others ∧
        ∀ items : List Item, (∀ item ∈ items, item.Proper) →
          arguments (before ++ quoted items ++ after) = front ++ (first ++ quoted items ++ last) :: others := by
  have closed : ∀ l ∈ literals t, l.terminated := (terminated_iff 0 0 t).mpr outside
  obtain ⟨each, whole⟩ := literalItems_arguments outside
  refine ⟨?_, closed, ?_⟩
  · have closed' : ∀ l ∈ (arguments t).flatMap literals, l.terminated := by
      intro l mem
      obtain ⟨argument, listed, found⟩ := List.mem_flatMap.mp mem
      exact (terminated_iff 0 0 argument).mpr (each argument listed) l found
    have items : ((arguments t).flatMap literals).map Literal.items = (literals t).map Literal.items := by
      rw [List.map_flatMap]
      exact whole
    rw [map_content closed, map_content closed', items]
  · intro l mem
    obtain ⟨before, after, depth, rfl, place, run, read⟩ := exists_read_of_mem_literalsFrom mem 0
    obtain ⟨items, start, terminated⟩ := l
    obtain rfl : terminated = true := closed _ mem
    obtain ⟨front, first, last, others, around⟩ := exists_arguments_around run after
    exact ⟨before, after, rfl, by omega, front, first, last, others, around items (read.proper rfl), around⟩

/-- In `), "a,(" , f("b\""`, one parenthesis closes nothing and one is not closed, and `")\""` takes the place of
    the first literal. -/
theorem arguments_literals_stray : (Scanner.start.run (lit "), \"a,(\" , f(\"b\\\"\"")).inString = false ∧
    ⟨[.plain 'a', .plain ',', .plain '('], 3, true⟩ ∈ literals (lit "), \"a,(\" , f(\"b\\\"\"") ∧
    (∀ item ∈ [Item.plain ')', .escaped '"'], item.Proper) ∧
    ((arguments (lit "), \"a,(\" , f(\"b\\\"\"")).flatMap literals).map Literal.content =
      (literals (lit "), \"a,(\" , f(\"b\\\"\"")).map Literal.content ∧
    ∃ front first last others,
      arguments (lit "), \"a,(\" , f(\"b\\\"\"") = front ++ (first ++ lit "\"a,(\"" ++ last) :: others ∧
      arguments (lit "), \")\\\"\" , f(\"b\\\"\"") = front ++ (first ++ lit "\")\\\"\"" ++ last) :: others := by
  have outside : (Scanner.start.run (lit "), \"a,(\" , f(\"b\\\"\"")).inString = false := by decide
  have mem : ⟨[.plain 'a', .plain ',', .plain '('], 3, true⟩ ∈ literals (lit "), \"a,(\" , f(\"b\\\"\"") := by
    decide +kernel
  have proper : ∀ item ∈ [Item.plain ')', .escaped '"'], item.Proper := by decide
  obtain ⟨same, -, replaced⟩ := arguments_literals outside
  obtain ⟨before, after, split, place, front, first, last, others, listed, around⟩ := replaced _ mem
  -- the literal begins at the fourth byte
  have cut : lit "), " ++ (lit "\"a,(\"" ++ lit " , f(\"b\\\"\"") = before ++ (lit "\"a,(\"" ++ after) := by
    rw [List.append_assoc] at split
    exact split
  obtain ⟨rfl, rest⟩ := Text.append_inj_of_byteSize cut place.symm
  obtain rfl := List.append_cancel_left rest
  exact ⟨outside, mem, proper, same, front, first, last, others, listed, around _ proper⟩

end PluginAudit.Code
