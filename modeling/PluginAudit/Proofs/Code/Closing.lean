import PluginAudit.Proofs.Code.Balanced
import PluginAudit.Proofs.Text.Slice

/-!
# Closing parentheses

What the scanner takes for the inside of a parenthesis is balanced (`balanced_of_balanced?`). So the closing
parenthesis that is found for a place in a text is the only one up to which the text is balanced, and none is found
only where there is none (`closingOffset_boundary`).
-/
namespace PluginAudit.Code

theorem ne_backslash {c : Char} {t : Text} (lone : c = '\\' → t = [] → False)
    (takes : ∀ d rest, c = '\\' → t = d :: rest → False) : c ≠ '\\' := by
  intro backslash
  cases t with
  | nil => exact lone backslash rfl
  | cons d rest => exact takes d rest backslash rfl

theorem proper_of_readItems {t after : Text} {items : List Item} (read : readItems t = (items, some after)) :
    ∀ item ∈ items, item.Proper := by
  fun_induction readItems t generalizing items with
  | case1 => simp at read
  | case2 => simp at read
  | case3 c t others after' eq ih =>
    obtain ⟨rfl, rfl⟩ := Prod.mk.inj read
    exact List.forall_mem_cons.mpr ⟨trivial, ih eq⟩
  | case4 t =>
    obtain ⟨rfl, -⟩ := Prod.mk.inj read
    simp
  | case5 c t lone takes notQuote others after' eq ih =>
    obtain ⟨rfl, rfl⟩ := Prod.mk.inj read
    exact List.forall_mem_cons.mpr ⟨⟨notQuote, ne_backslash lone takes⟩, ih eq⟩

theorem eq_quoted_of_readItems {t after : Text} {items : List Item} (read : readItems t = (items, some after)) :
    '"' :: t = quoted items ++ after := by
  have spelled := eq_spelling_readItems t
  rw [read] at spelled
  rw [spelled]
  simp [quoted]

namespace Scanner

/-- The scanner reads a string that does not end as such, to the end of the text. -/
theorem reads_unterminated {t : Text} {items : List Item} (read : readItems t = (items, none)) (depth : Int) :
    ∃ s' : Scanner, Reads (Within depth) ⟨true, false, depth⟩ t s' ∧ s'.inString := by
  fun_induction readItems t generalizing items with
  | case1 => exact ⟨_, .nil, rfl⟩
  | case2 => exact ⟨_, .cons ⟨rfl, rfl⟩ .nil, rfl⟩
  | case3 c t others after' eq ih =>
    obtain ⟨rfl, rfl⟩ := Prod.mk.inj read
    obtain ⟨s', rest, inside⟩ := ih eq
    exact ⟨s', .cons ⟨rfl, rfl⟩ (.cons ⟨rfl, rfl⟩ rest), inside⟩
  | case4 t => simp at read
  | case5 c t lone takes notQuote others after' eq ih =>
    obtain ⟨rfl, rfl⟩ := Prod.mk.inj read
    obtain ⟨s', rest, inside⟩ := ih eq
    refine ⟨s', .cons ?_ ?_, inside⟩ <;> rw [step_literal notQuote (ne_backslash lone takes)]
    · exact ⟨rfl, rfl⟩
    · exact rest

end Scanner

/-- Balanced texts, one more than the given number, with a closing parenthesis after each but the last. -/
def Unwinds : Nat → Text → Prop
  | 0, t => Balanced t
  | depth + 1, t => ∃ inner rest, t = inner ++ ')' :: rest ∧ Balanced inner ∧ Unwinds depth rest

theorem Unwinds.prepend {depth : Nat} {s t : Text} (balanced : Balanced s) (unwinds : Unwinds depth t) :
    Unwinds depth (s ++ t) := by
  cases depth with
  | zero => exact balanced.append unwinds
  | succ depth =>
    obtain ⟨inner, rest, rfl, nested, later⟩ := unwinds
    exact ⟨s ++ inner, rest, by simp, balanced.append nested, later⟩

/-- A part of a text in which the outermost parenthesis does not close begins what is found inside it. -/
theorem exists_of_balanced?_append {s s' : Scanner} {u t inner after : Text}
    (reads : Scanner.Reads (fun step => ¬ Scanner.Closes step) s u s')
    (closed : balanced? s (u ++ t) = some (inner, after)) :
    ∃ later, inner = u ++ later ∧ balanced? s' t = some (later, after) := by
  rw [balanced?_append reads] at closed
  obtain ⟨⟨later, after'⟩, found, eq⟩ := Option.map_eq_some_iff.mp closed
  obtain ⟨rfl, rfl⟩ := Prod.mk.inj eq
  exact ⟨later, rfl, found⟩

/-- What the scanner reads in several parentheses is a balanced text for each, up to the parenthesis that closes it. -/
theorem unwinds_of_balanced? {depth : Nat} {t inner after : Text}
    (closed : balanced? (.nested (depth + 1)) t = some (inner, after)) : Unwinds depth inner := by
  -- on the length of the text, as a whole string is read at once
  induction size : t.length using Nat.strongRecOn generalizing depth t inner with
  | ind length ih =>
  subst size
  cases t with
  | nil => simp [balanced?] at closed
  | cons c t =>
    have shorter : t.length < (c :: t).length := by simp
    by_cases quote : c = '"'
    · subst quote
      cases read : readItems t with
      | mk items ended =>
      cases ended with
      | none =>
        obtain ⟨s', reads, -⟩ := Scanner.reads_unterminated read (depth + 1)
        have whole : Scanner.Reads (fun step => ¬ Scanner.Closes step) (.nested (depth + 1)) ('"' :: t) s' :=
          .cons (by rintro ⟨⟨⟩, -⟩) (reads.mono fun step within => within.quotes.not_closes)
        obtain ⟨later, -, never⟩ := exists_of_balanced?_append (t := []) whole (by simpa using closed)
        simp [balanced?] at never
      | some rest =>
        have proper := proper_of_readItems read
        have string := (Scanner.reads_quoted proper (depth + 1)).mono fun step quotes => quotes.not_closes
        rw [eq_quoted_of_readItems read] at closed
        obtain ⟨later, rfl, closed'⟩ := exists_of_balanced?_append string closed
        have unwinds := ih rest.length (Nat.lt_trans (length_after_readItems read) shorter) closed' rfl
        simpa using unwinds.prepend (Balanced.string proper .nil)
    by_cases opening : c = '('
    · subst opening
      have opens : Scanner.Reads (fun step => ¬ Scanner.Closes step) (.nested (depth + 1)) ['(']
          (.nested ((depth + 1 : Nat) + 1)) := .cons (by rintro ⟨⟨⟩, -⟩) .nil
      obtain ⟨later, rfl, closed'⟩ := exists_of_balanced?_append opens closed
      obtain ⟨group, rest, rfl, nested, unwinds⟩ := ih t.length shorter closed' rfl
      simpa using unwinds.prepend (Balanced.group nested .nil)
    by_cases closing : c = ')'
    · subst closing
      have closes := Scanner.step_closing (Int.natCast_nonneg depth)
      cases depth with
      | zero =>
        obtain ⟨rfl, -⟩ := Prod.mk.inj (Option.some.inj closed)
        exact Balanced.nil
      | succ depth =>
        have reads : Scanner.Reads (fun step => ¬ Scanner.Closes step) (.nested ((depth + 1 : Nat) + 1)) [')']
            (.nested (depth + 1)) := by
          refine .cons ?_ ?_ <;> rw [closes]
          · rintro ⟨-, outermost⟩
            simp only [Scanner.nested] at outermost
            omega
          · exact .nil
        obtain ⟨later, rfl, closed'⟩ := exists_of_balanced?_append reads closed
        exact ⟨[], later, rfl, .nil, ih t.length shorter closed' rfl⟩
    · have reads : Scanner.Reads (fun step => ¬ Scanner.Closes step) (.nested (depth + 1)) [c]
          (.nested (depth + 1)) := by
        refine .cons ?_ ?_ <;> rw [Scanner.step_plain rfl quote opening closing]
        · rintro ⟨token, -⟩
          split at token <;> cases token
        · exact .nil
      obtain ⟨later, rfl, closed'⟩ := exists_of_balanced?_append reads closed
      exact (ih t.length shorter closed' rfl).prepend (Balanced.char quote opening closing .nil)

theorem balanced_of_balanced? {t inner after : Text} (closed : balanced? (.nested 1) t = some (inner, after)) :
    Balanced inner := by
  have unwinds : Unwinds 0 inner := unwinds_of_balanced? closed
  exact unwinds

theorem balanced?_eq_some_iff {t inner after : Text} :
    balanced? (.nested 1) t = some (inner, after) ↔ t = inner ++ ')' :: after ∧ Balanced inner := by
  constructor
  · intro closed
    exact ⟨eq_of_balanced? closed, balanced_of_balanced? closed⟩
  · rintro ⟨rfl, balanced⟩
    exact balanced.balanced? after

/-- The text between two byte offsets is balanced, and a closing parenthesis stands at the second one. -/
def ClosesAt (t : Text) (body close : Nat) : Prop :=
  ∃ before inner after, t = before ++ inner ++ ')' :: after ∧ before.byteSize = body ∧
    (before ++ inner).byteSize = close ∧ Balanced inner

theorem closingOffset_append (before rest : Text) : closingOffset (before ++ rest) before.byteSize =
    .ok ((balanced? (.nested 1) rest).map fun (inner, _) => before.byteSize + inner.byteSize) := by
  rw [closingOffset, Text.splitAt?_eq_some_iff.mpr ⟨rfl, rfl⟩]

theorem closingOffset_eq_some_iff {t : Text} {body close : Nat} :
    closingOffset t body = .ok (some close) ↔ ClosesAt t body close := by
  constructor
  · intro closed
    rw [closingOffset] at closed
    split at closed
    next => cases closed
    next before rest split =>
      obtain ⟨rfl, rfl⟩ := Text.splitAt?_eq_some_iff.mp split
      obtain ⟨⟨inner, after⟩, found, rfl⟩ := Option.map_eq_some_iff.mp (Except.ok.inj closed)
      obtain ⟨rfl, balanced⟩ := balanced?_eq_some_iff.mp found
      exact ⟨before, inner, after, (List.append_assoc ..).symm, rfl, Text.byteSize_append .., balanced⟩
  · rintro ⟨before, inner, after, rfl, rfl, rfl, balanced⟩
    rw [List.append_assoc, closingOffset_append, balanced.balanced? after, Text.byteSize_append]
    rfl

/-- At every boundary of a text, the closing parenthesis that is found is the one up to which the text is
    balanced. There is at most one such parenthesis, and none is found exactly if there is none. -/
theorem closingOffset_boundary {t : Text} {body : Nat} (boundary : t.Boundary body) :
    (∀ close, closingOffset t body = .ok (some close) ↔ ClosesAt t body close) ∧
    (∀ close close', ClosesAt t body close → ClosesAt t body close' → close = close') ∧
    (closingOffset t body = .ok none ↔ ¬ ∃ close, ClosesAt t body close) := by
  refine ⟨fun _ => closingOffset_eq_some_iff, fun close close' closes closes' => ?_, ?_⟩
  · have same := (closingOffset_eq_some_iff.mpr closes).symm.trans (closingOffset_eq_some_iff.mpr closes')
    simpa using same
  · obtain ⟨before, rest, rfl, rfl⟩ := boundary
    obtain ⟨closed?, answer⟩ : ∃ closed?, closingOffset (before ++ rest) before.byteSize = .ok closed? :=
      ⟨_, closingOffset_append before rest⟩
    simp only [← closingOffset_eq_some_iff, answer]
    cases closed? <;> simp

/-- In `("\")",x))`, a string with an escaped quote and a closing parenthesis stands in front of the parenthesis
    that closes the first one. -/
theorem closingOffset_string : Text.Boundary (lit "(\"\\\")\",x))") 1 ∧
    closingOffset (lit "(\"\\\")\",x))") 1 = .ok (some 8) ∧ ClosesAt (lit "(\"\\\")\",x))") 1 8 := by
  have boundary : Text.Boundary (lit "(\"\\\")\",x))") 1 := ⟨lit "(", lit "\"\\\")\",x))", by decide, by decide⟩
  have closes : closingOffset (lit "(\"\\\")\",x))") 1 = .ok (some 8) := rfl
  exact ⟨boundary, closes, ((closingOffset_boundary boundary).1 8).mp closes⟩

end PluginAudit.Code
