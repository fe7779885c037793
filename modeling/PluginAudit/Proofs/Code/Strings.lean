import PluginAudit.Proofs.Code.Closing
import PluginAudit.Proofs.Code.Quoted
import Mathlib.Data.List.Infix

/-!
# Strings of a text

The literals of a text are read one by one, and the scanner goes over the whole text. Both find the same strings:
the scanner comes to every literal outside strings (`exists_read_of_mem_literalsFrom`), and whatever it takes for a
quote or for the inside of a string stands in a literal (`exists_covers`).
-/
namespace PluginAudit.Code

namespace Scanner

variable {P : Token × Scanner → Prop} {s s' : Scanner} {t u : Text} {c : Char}

theorem Reads.step (reads : Reads P s (t ++ c :: u) s') : P ((s.run t).step c) :=
  reads.2 _ (by rw [trace_append]; exact List.mem_append_right _ List.mem_cons_self)

/-- A backslash waits for the character after it only inside a string. -/
def Settled (s : Scanner) : Prop := s.escaped → s.inString

theorem settled_nested (depth : Int) : (nested depth).Settled := by
  intro escaped
  cases escaped

theorem Settled.step (settled : s.Settled) (c : Char) : (s.step c).2.Settled := by
  unfold Settled at settled ⊢
  unfold Scanner.step
  split_ifs <;> simp_all

theorem Settled.run (settled : s.Settled) (t : Text) : (s.run t).Settled := by
  induction t generalizing s with
  | nil => exact settled
  | cons c t ih => exact ih (settled.step c)

theorem Settled.eq_nested (settled : s.Settled) (outside : s.inString = false) : s = nested s.depth := by
  have fresh : s.escaped = false := by
    by_contra escaped
    have inside := settled (by simpa using escaped)
    rw [inside] at outside
    cases outside
  obtain ⟨inString, escaped, depth⟩ := s
  obtain rfl : inString = false := outside
  obtain rfl : escaped = false := fresh
  rfl

/-- Outside strings, a character other than a quote is neither a quote nor part of a string. -/
theorem step_other (depth : Int) (notQuote : c ≠ '"') : ∃ token depth',
    (nested depth).step c = (token, nested depth') ∧ token ≠ .quote ∧ token ≠ .literal := by
  by_cases opening : c = '('
  · subst opening
    exact ⟨.opening, depth + 1, rfl, by decide, by decide⟩
  by_cases closing : c = ')'
  · subst closing
    by_cases deep : 0 < depth
    · exact ⟨.closing, depth - 1, by simp [step, nested, deep], by decide, by decide⟩
    · exact ⟨.text, depth, by simp [step, nested, deep], by decide, by decide⟩
  · refine ⟨_, depth, step_plain rfl notQuote opening closing, ?_, ?_⟩ <;> split <;> decide

theorem step_quote (s : Scanner) : (s.step '"').1 = .quote ∨ (s.step '"').1 = .literal := by
  unfold step
  split_ifs <;> simp_all

/-- A complete literal leaves the scanner as it was. -/
theorem run_terminated {items : List Item} (read : readItems t = (items, some u)) (depth : Int) :
    (nested depth).run ('"' :: t) = (nested depth).run u := by
  rw [eq_quoted_of_readItems read, run_append, (reads_quoted (proper_of_readItems read) depth).1]

theorem inString_run_unterminated {items : List Item} (read : readItems t = (items, none)) (depth : Int) :
    ((nested depth).run ('"' :: t)).inString := by
  obtain ⟨s', reads, inside⟩ := reads_unterminated read depth
  have ends : (nested depth).run ('"' :: t) = s' := reads.1
  rw [ends, inside]

end Scanner

namespace Literal

/-- A byte offset is in the span of a literal. -/
def Covers (l : Literal) (offset : Nat) : Prop := l.start ≤ offset ∧ offset < l.stop

/-- A byte offset is that of the opening or of the closing quote of a literal. -/
def QuoteAt (l : Literal) (offset : Nat) : Prop := offset = l.start ∨ l.terminated ∧ offset + 1 = l.stop

instance (l : Literal) (offset : Nat) : Decidable (l.QuoteAt offset) := inferInstanceAs (Decidable (_ ∨ _))

/-- A byte offset is in the span of a literal, and not that of a quote around it. -/
def Encloses (l : Literal) (offset : Nat) : Prop := l.Covers offset ∧ ¬ l.QuoteAt offset

theorem start_lt_stop (l : Literal) : l.start < l.stop := by
  have quote : '"'.utf8Size = 1 := rfl
  rw [stop, spelling, Text.byteSize_cons]
  omega

theorem QuoteAt.covers {l : Literal} {offset : Nat} (quote : l.QuoteAt offset) : l.Covers offset := by
  have nonempty := l.start_lt_stop
  rcases quote with rfl | ⟨-, last⟩
  · exact ⟨Nat.le_refl _, nonempty⟩
  · exact ⟨by omega, by omega⟩

end Literal

variable {offset : Nat} {t before after m n : Text} {l : Literal} {c : Char}

theorem spelling_terminated (items : List Item) (start : Nat) :
    Literal.spelling ⟨items, start, true⟩ = quoted items := rfl

theorem spelling_unterminated (items : List Item) (start : Nat) :
    Literal.spelling ⟨items, start, false⟩ = '"' :: items.flatMap Item.spelling := by
  simp [Literal.spelling]

theorem eq_spelling_of_readItems {items : List Item} (read : readItems t = (items, none)) :
    t = items.flatMap Item.spelling := by
  have spelled := eq_spelling_readItems t
  rw [read] at spelled
  simpa using spelled

/-- A literal was read in front of a text: its items are proper if it is terminated, and otherwise nothing
    follows it. -/
structure Literal.ReadBefore (l : Literal) (after : Text) : Prop where
  proper : l.terminated → ∀ item ∈ l.items, item.Proper
  ended : l.terminated = false → after = []
  unended : l.terminated = false → readItems (l.items.flatMap Item.spelling) = (l.items, none)

/-- Every literal of a text stands at its place in it, and the scanner comes to it outside strings. -/
theorem exists_read_of_mem_literalsFrom (mem : l ∈ literalsFrom offset t) (depth : Int) :
    ∃ before after depth', t = before ++ l.spelling ++ after ∧ offset + before.byteSize = l.start ∧
      (Scanner.nested depth).run before = .nested depth' ∧ l.ReadBefore after := by
  fun_induction literalsFrom offset t generalizing depth with
  | case1 => simp at mem
  | case2 offset t items read =>
    obtain rfl := List.mem_singleton.mp mem
    have spelled := eq_spelling_of_readItems read
    refine ⟨[], [], depth, ?_, rfl, rfl, by simp, fun _ => rfl, fun _ => by rwa [← spelled]⟩
    rw [spelling_unterminated, ← spelled, List.nil_append, List.append_nil]
  | case3 offset t items after read found _ ih =>
    have proper := proper_of_readItems read
    rcases List.mem_cons.mp mem with rfl | later
    · have whole : '"' :: t = quoted items ++ after := eq_quoted_of_readItems read
      exact ⟨[], after, depth, whole, rfl, rfl, fun _ => proper, by simp [found], by simp [found]⟩
    · obtain ⟨before, after', depth', split, place, run, readBefore⟩ := ih later depth
      refine ⟨quoted items ++ before, after', depth', ?_, ?_, ?_, readBefore⟩
      · rw [eq_quoted_of_readItems read, split]
        simp
      · rw [← place, Literal.stop, spelling_terminated, Text.byteSize_append, Nat.add_assoc]
      · rw [Scanner.run_append, (Scanner.reads_quoted proper depth).1, run]
  | case4 offset c t notQuote ih =>
    obtain ⟨token, inner, step, -⟩ := Scanner.step_other depth notQuote
    obtain ⟨before, after, depth', rfl, place, run, readBefore⟩ := ih mem inner
    refine ⟨c :: before, after, depth', rfl, ?_, ?_, readBefore⟩
    · rw [← place, Text.byteSize_cons, Nat.add_assoc]
    · rw [Scanner.run_cons, step, run]

theorem offset_le_start (mem : l ∈ literalsFrom offset t) : offset ≤ l.start := by
  obtain ⟨before, -, -, -, place, -⟩ := exists_read_of_mem_literalsFrom mem 0
  omega

theorem stop_le (mem : l ∈ literals t) : l.stop ≤ t.byteSize := by
  obtain ⟨before, after, -, rfl, place, -⟩ := exists_read_of_mem_literalsFrom mem 0
  rw [Literal.stop, ← place, Text.byteSize_append, Text.byteSize_append]
  omega

theorem stop_of_unterminated (mem : l ∈ literals t) (unterminated : l.terminated = false) :
    l.stop = t.byteSize := by
  obtain ⟨before, after, -, rfl, place, -, read⟩ := exists_read_of_mem_literalsFrom mem 0
  rw [read.ended unterminated, Literal.stop, ← place, List.append_nil, Text.byteSize_append]
  omega

theorem pairwise_literalsFrom (offset : Nat) (t : Text) :
    (literalsFrom offset t).Pairwise fun l l' => l.stop ≤ l'.start := by
  fun_induction literalsFrom offset t with
  | case1 => exact .nil
  | case2 => exact List.pairwise_singleton _ _
  | case3 offset t items after read _ _ ih => exact .cons (fun l' later => offset_le_start later) ih
  | case4 offset c t notQuote ih => exact ih

/-- The scanner ends inside a string exactly if a literal is not terminated. -/
theorem inString_run_iff (offset : Nat) (depth : Int) (t : Text) :
    ((Scanner.nested depth).run t).inString ↔ ∃ l ∈ literalsFrom offset t, l.terminated = false := by
  fun_induction literalsFrom offset t generalizing depth with
  | case1 => simp [Scanner.nested]
  | case2 offset t items read =>
    rw [Scanner.inString_run_unterminated read]
    simp
  | case3 offset t items after read _ _ ih =>
    rw [Scanner.run_terminated read, ih]
    simp
  | case4 offset c t notQuote ih =>
    obtain ⟨token, inner, step, -⟩ := Scanner.step_other depth notQuote
    rw [Scanner.run_cons, step, ih]

theorem terminated_iff (offset : Nat) (depth : Int) (t : Text) :
    (∀ l ∈ literalsFrom offset t, l.terminated) ↔ ((Scanner.nested depth).run t).inString = false := by
  rw [← Bool.not_eq_true, inString_run_iff offset depth t]
  simp

/-- What the scanner takes for a quote or for the inside of a string stands in a literal. -/
theorem exists_covers (offset : Nat) (depth : Int) (split : t = before ++ c :: after)
    (string : (((Scanner.nested depth).run before).step c).1 = .quote ∨
      (((Scanner.nested depth).run before).step c).1 = .literal) :
    ∃ l ∈ literalsFrom offset t, l.Covers (offset + before.byteSize) := by
  have size := c.utf8Size_pos
  fun_induction literalsFrom offset t generalizing depth before with
  | case1 => simp at split
  | case2 offset t items read =>
    -- the literal reaches the end of the text
    have whole : Literal.stop ⟨items, offset, false⟩ = offset + (before ++ c :: after).byteSize := by
      rw [← split, Literal.stop, spelling_unterminated, ← eq_spelling_of_readItems read]
    rw [Text.byteSize_append, Text.byteSize_cons] at whole
    exact ⟨_, List.mem_singleton_self _, Nat.le_add_right _ _, by omega⟩
  | case3 offset t items rest read =>
    rename_i found _ ih
    have stop : found.stop = offset + (quoted items).byteSize := rfl
    by_cases inside : before.byteSize < (quoted items).byteSize
    · exact ⟨_, List.mem_cons_self, Nat.le_add_right _ _, by omega⟩
    · -- the character stands after the literal, which leaves the scanner as it was
      rw [eq_quoted_of_readItems read] at split
      obtain ⟨m, rfl, later⟩ := Text.exists_append_of_byteSize_le split (Nat.le_of_not_lt inside)
      have quotes := Scanner.reads_quoted (proper_of_readItems read) depth
      rw [Scanner.run_append, quotes.1] at string
      obtain ⟨l, mem, covers⟩ := ih _ later string
      refine ⟨l, List.mem_cons_of_mem _ mem, ?_⟩
      rwa [Text.byteSize_append, ← Nat.add_assoc, ← stop]
  | case4 offset d t notQuote ih =>
    obtain ⟨token, inner, step, other, other'⟩ := Scanner.step_other depth notQuote
    cases before with
    | nil =>
      obtain ⟨rfl, -⟩ := List.cons.inj split
      rw [Scanner.run_nil, step] at string
      exact absurd string (by simp [other, other'])
    | cons d' before =>
      obtain ⟨rfl, later⟩ := List.cons.inj split
      rw [Scanner.run_cons, step] at string
      rw [Text.byteSize_cons, ← Nat.add_assoc]
      exact ih _ later string

/-- The first and the last character of a terminated literal are its quotes, and the others are inside it. -/
theorem step_of_spelling (read : l.ReadBefore after) (split : l.spelling = m ++ c :: n) (depth : Int) :
    (((Scanner.nested depth).run m).step c).1 = if m = [] ∨ l.terminated ∧ n = [] then .quote else .literal := by
  cases m with
  | nil =>
    obtain ⟨rfl, -⟩ := List.cons.inj split
    rfl
  | cons q m =>
    obtain ⟨rfl, inner⟩ := List.cons.inj split
    have opened : (Scanner.nested depth).run ('"' :: m) = Scanner.run ⟨true, false, depth⟩ m := rfl
    rw [opened]
    cases terminated : l.terminated with
    | false =>
      obtain ⟨s', reads, -⟩ := Scanner.reads_unterminated (read.unended terminated) depth
      have body : l.items.flatMap Item.spelling = m ++ c :: n := by simpa [terminated] using inner
      rw [body] at reads
      simpa using reads.step.1
    | true =>
      have reads := Scanner.reads_items (read.proper terminated) depth
      rcases List.eq_nil_or_concat n with rfl | ⟨n, q, rfl⟩
      · have body : l.items.flatMap Item.spelling = m ∧ '"' = c := by simpa [terminated] using inner
        obtain ⟨rfl, rfl⟩ := body
        rw [reads.1]
        simp [Scanner.step]
      · have body : l.items.flatMap Item.spelling = m ++ c :: n := by
          have whole : l.items.flatMap Item.spelling ++ ['"'] = (m ++ c :: n) ++ [q] := by
            simpa [terminated] using inner
          exact (List.append_inj' whole rfl).1
        rw [body] at reads
        simpa using reads.step.1

theorem quoteAt_iff (split : l.spelling = m ++ c :: n) :
    l.QuoteAt (l.start + m.byteSize) ↔ m = [] ∨ l.terminated ∧ n = [] := by
  have size := c.utf8Size_pos
  have stop : l.stop = l.start + (m.byteSize + (c.utf8Size + n.byteSize)) := by
    rw [Literal.stop, split, Text.byteSize_append, Text.byteSize_cons]
  have empty : ∀ u : Text, u.byteSize = 0 ↔ u = [] := fun u =>
    ⟨Text.eq_nil_of_byteSize_eq_zero, by rintro rfl; rfl⟩
  have last : l.terminated → n = [] → c.utf8Size = 1 := by
    rintro terminated rfl
    have ends : (l.spelling).getLast? = some '"' := by
      rw [Literal.spelling, if_pos terminated, ← List.cons_append, List.getLast?_concat]
    rw [split, List.getLast?_concat] at ends
    obtain rfl := Option.some.inj ends
    rfl
  rw [Literal.QuoteAt, stop, ← empty m]
  constructor
  · rintro (first | ⟨terminated, ends⟩)
    · exact .inl (by omega)
    · exact .inr ⟨terminated, (empty n).mp (by omega)⟩
  · rintro (first | ⟨terminated, ends⟩)
    · exact .inl (by omega)
    · have one := last terminated ends
      rw [(empty n).mpr ends]
      exact .inr ⟨terminated, by omega⟩

/-- Where a character stands in a literal says what the scanner takes it for. -/
theorem step_of_covers (mem : l ∈ literals t) (split : t = before ++ c :: after) (covers : l.Covers before.byteSize) :
    ((Scanner.start.run before).step c).1 = if l.QuoteAt before.byteSize then .quote else .literal := by
  obtain ⟨init, later, depth, whole, place, run, read⟩ := exists_read_of_mem_literalsFrom mem 0
  rw [split, List.append_assoc] at whole
  obtain ⟨low, high⟩ := covers
  rw [Literal.stop] at high
  obtain ⟨m, rfl, inner⟩ := Text.exists_append_of_byteSize_le whole.symm (by omega)
  rw [Text.byteSize_append] at high
  obtain ⟨n, literal, ends⟩ := Text.exists_append_of_byteSize_le inner.symm (by omega)
  cases n with
  | nil =>
    rw [literal, List.append_nil] at high
    omega
  | cons d n =>
    obtain ⟨rfl, -⟩ := List.cons.inj ends
    have place' : (init ++ m).byteSize = l.start + m.byteSize := by
      rw [Text.byteSize_append]
      omega
    have start : Scanner.start = .nested 0 := rfl
    rw [place', start, Scanner.run_append, run, step_of_spelling read literal]
    simp only [quoteAt_iff literal]

/-- The spans of the literals are where the strings of a text are. -/
structure StringsOf (t : Text) (ls : List Literal) : Prop where
  ordered : ls.Pairwise fun l l' => l.stop ≤ l'.start
  inside : ∀ l ∈ ls, l.start < l.stop ∧ l.stop ≤ t.byteSize
  quoteCovered : ∀ before after, t = before ++ '"' :: after → ∃ l ∈ ls, l.Covers before.byteSize
  terminated : ∀ l ∈ ls.dropLast, l.terminated
  unterminated : (∃ l ∈ ls.getLast?, l.terminated = false) ↔ (Scanner.start.run t).inString
  reaches : ∀ l ∈ ls, l.terminated = false → l.stop = t.byteSize
  literal : ∀ before c after, t = before ++ c :: after →
    (((Scanner.start.run before).step c).1 = .literal ↔ ∃ l ∈ ls, l.Encloses before.byteSize)
  quote : ∀ before c after, t = before ++ c :: after →
    (((Scanner.start.run before).step c).1 = .quote ↔ ∃ l ∈ ls, l.QuoteAt before.byteSize)

theorem terminated_of_mem_dropLast (mem : l ∈ (literals t).dropLast) : l.terminated := by
  by_contra unterminated
  have reaches := stop_of_unterminated (List.mem_of_mem_dropLast mem) (by simpa using unterminated)
  have nonempty : literals t ≠ [] := by
    intro empty
    simp [empty] at mem
  have ordered := pairwise_literalsFrom 0 t
  rw [← literals, ← List.dropLast_append_getLast nonempty] at ordered
  have apart := (List.pairwise_append.mp ordered).2.2 l mem _ (List.mem_singleton_self _)
  have last := stop_le (List.getLast_mem nonempty)
  have longer := ((literals t).getLast nonempty).start_lt_stop
  omega

theorem unterminated_getLast?_iff (t : Text) :
    (∃ l ∈ (literals t).getLast?, l.terminated = false) ↔ (Scanner.start.run t).inString := by
  have start : Scanner.start = .nested 0 := rfl
  rw [start, inString_run_iff 0, ← literals]
  constructor
  · rintro ⟨l, last, unterminated⟩
    exact ⟨l, List.mem_of_getLast? last, unterminated⟩
  · rintro ⟨l, mem, unterminated⟩
    have nonempty := List.ne_nil_of_mem mem
    rw [← List.dropLast_append_getLast nonempty] at mem
    rcases List.mem_append.mp mem with early | last
    · exact absurd (terminated_of_mem_dropLast early) (by simp [unterminated])
    · obtain rfl := List.mem_singleton.mp last
      exact ⟨_, List.getLast?_eq_some_getLast nonempty, unterminated⟩

/-- The literals of a text and the scanner agree on where its strings are, whatever parentheses and commas
    it has. -/
theorem stringsOf_literals (t : Text) : StringsOf t (literals t) := by
  have covered : ∀ {before c after}, t = before ++ c :: after →
      ((Scanner.start.run before).step c).1 = .quote ∨ ((Scanner.start.run before).step c).1 = .literal →
      ∃ l ∈ literals t, l.Covers before.byteSize := by
    intro before c after split string
    have found := exists_covers 0 0 split string
    rwa [Nat.zero_add] at found
  exact {
    ordered := pairwise_literalsFrom 0 t
    inside := fun l mem => ⟨l.start_lt_stop, stop_le mem⟩
    quoteCovered := fun before after split => covered split (Scanner.step_quote _)
    terminated := fun l mem => terminated_of_mem_dropLast mem
    unterminated := unterminated_getLast?_iff t
    reaches := fun l mem unterminated => stop_of_unterminated mem unterminated
    literal := fun before c after split => by
      constructor
      · intro literal
        obtain ⟨l, mem, covers⟩ := covered split (.inr literal)
        refine ⟨l, mem, covers, fun quote => ?_⟩
        rw [step_of_covers mem split covers, if_pos quote] at literal
        cases literal
      · intro enclosed
        obtain ⟨l, mem, covers, notQuote⟩ := enclosed
        rw [step_of_covers mem split covers, if_neg notQuote]
    quote := fun before c after split => by
      constructor
      · intro quote
        obtain ⟨l, mem, covers⟩ := covered split (.inl quote)
        refine ⟨l, mem, ?_⟩
        by_contra notQuote
        rw [step_of_covers mem split covers, if_neg notQuote] at quote
        cases quote
      · intro around
        obtain ⟨l, mem, quote⟩ := around
        rw [step_of_covers mem split quote.covers, if_pos quote] }

example : (literals (lit "f(\"a\\\"b\", \"c")).map (fun l => (l.start, l.stop, l.terminated)) =
    [(2, 8, true), (10, 12, false)] := by cbv

end PluginAudit.Code
