import PluginAudit.Proofs.Code.Offsets

/-!
# Literals by byte offsets

A literal is read at the byte offset of its opening quote, and its end is counted along the text. Searches that read
literals so never fail and find the literals and labels of a text (`literalTurn_runs`, `labelTurn_runs`), and
whether a text is a single literal is seen from one (`alone?_literals`).
-/
namespace PluginAudit.Code

/-- A literal with the byte offset after it, as it is counted along a text. -/
structure Spanned where
  literal : Literal
  stop : Nat
deriving DecidableEq

/-- The same literal in a text that has so many bytes more in front. -/
def Spanned.shift (n : Nat) (found : Spanned) : Spanned := ⟨found.literal.shift n, n + found.stop⟩

/-- A literal with the byte offset after what it is written as. -/
def Literal.spanned (l : Literal) : Spanned := ⟨l, l.stop⟩

theorem Literal.shift_spanned (n : Nat) (l : Literal) : l.spanned.shift n = (l.shift n).spanned := by
  have stop : (l.shift n).stop = n + l.stop := Nat.add_assoc n l.start l.spelling.byteSize
  rw [Spanned.shift, spanned, spanned, stop]

/-- The byte offset of the quote that ends the string in which a scanner is. -/
def quoteOffset? (s : Scanner) : Text → Option Nat
  | [] => none
  | c :: t => if (s.step c).1 = .quote then some 0 else (quoteOffset? (s.step c).2 t).map (c.utf8Size + ·)

/-- Reads the literal whose opening quote is at a byte offset. -/
def readAt (t : Text) (start : Nat) : Except OffBoundary Spanned := do
  let body ← t.dropBytes (start + 1)
  let closing := quoteOffset? (Scanner.start.step '"').2 body
  return ⟨⟨(readItems body).1, start, closing.isSome⟩, closing.elim t.byteSize fun offset => start + 1 + offset + 1⟩

/-- Decodes a string that the scanner is in, given the value and the unknown escapes so far, and returns what follows
    it if it ends. A backslash that takes nothing stands for itself. -/
def decode (s : Scanner) (value : Text) (unrecognized : List Char) : Text → Text × List Char × Option Text
  | [] => (if s.escaped then value ++ ['\\'] else value, unrecognized, none)
  | c :: t =>
    let (token, next) := s.step c
    if token = .quote then (value, unrecognized, some t)
    else if s.escaped then
      decode next (value ++ (Item.escaped c).value) (unrecognized ++ (Item.escaped c).unrecognized?.toList) t
    else if next.escaped then decode next value unrecognized t
    else decode next (value ++ [c]) unrecognized t

def literalTurn (t : Text) : Nat → Except OffBoundary (Turn Spanned) :=
  seek ['"'] t fun start => do
    let found ← readAt t start
    return .found found found.stop

section
variable {t u body after : Text} {items : List Item}

theorem quoteOffset?_eq (depth : Int) (t : Text) : quoteOffset? ⟨true, false, depth⟩ t =
    (readItems t).2.map fun _ => Text.byteSize ((readItems t).1.flatMap Item.spelling) := by
  fun_induction readItems t with
  | case1 => rfl
  | case2 => rfl
  | case3 c t items after read ih =>
    have backslash : Scanner.step ⟨true, false, depth⟩ '\\' = (.literal, ⟨true, true, depth⟩) := rfl
    have taken : Scanner.step ⟨true, true, depth⟩ c = (.literal, ⟨true, false, depth⟩) := rfl
    rw [read] at ih
    cases after <;> simp_all [quoteOffset?, Item.spelling]
  | case4 t => rfl
  | case5 c t lone takes notQuote items after read ih =>
    have plain := Scanner.step_literal notQuote (ne_backslash lone takes) depth
    rw [read] at ih
    cases after <;> simp_all [quoteOffset?, Item.spelling]

/-- Decoding character by character comes to what the items stand for. -/
theorem decode_eq (depth : Int) (value : Text) (unrecognized : List Char) (t : Text) :
    decode ⟨true, false, depth⟩ value unrecognized t = (value ++ (readItems t).1.flatMap Item.value,
      unrecognized ++ (readItems t).1.filterMap Item.unrecognized?, (readItems t).2) := by
  -- along the reader of items: an escape is one item and two turns of the loop
  fun_induction readItems t generalizing value unrecognized with
  | case1 => simp [decode]
  | case2 => simp [decode, Scanner.step, Item.value, Item.unrecognized?]
  | case3 c t items after read ih =>
    have backslash : Scanner.step ⟨true, false, depth⟩ '\\' = (.literal, ⟨true, true, depth⟩) := rfl
    have taken : Scanner.step ⟨true, true, depth⟩ c = (.literal, ⟨true, false, depth⟩) := rfl
    rw [read] at ih
    simp only [decode, backslash, taken, ih, List.flatMap_cons, List.append_assoc]
    cases known : Item.unrecognized? (.escaped c) <;> simp [known]
  | case4 t => simp [decode, Scanner.step]
  | case5 c t lone takes notQuote items after read ih =>
    have plain := Scanner.step_literal notQuote (ne_backslash lone takes) depth
    rw [read] at ih
    have known : Item.unrecognized? (.plain c) = none := rfl
    simp [decode, plain, ih, Item.value, List.filterMap_cons_none known]

theorem decode_of_readAt {start : Nat} {found : Spanned} (read : readAt t start = .ok found) :
    ∃ body after, t.dropBytes (start + 1) = .ok body ∧ found.literal.terminated = after.isSome ∧
      decode (Scanner.start.step '"').2 [] [] body = (found.literal.value, found.literal.unrecognized, after) := by
  rw [readAt] at read
  cases rest : t.dropBytes (start + 1) with
  | error off =>
    rw [rest] at read
    cases read
  | ok body =>
    have opened : (Scanner.start.step '"').2 = ⟨true, false, 0⟩ := rfl
    rw [rest, ok_bind, opened] at read
    cases read
    refine ⟨body, (readItems body).2, rfl, ?_, ?_⟩
    · rw [quoteOffset?_eq]
      cases (readItems body).2 <;> rfl
    · rw [opened, decode_eq]
      rfl

/-- A literal ends where the text does, or after its closing quote. -/
theorem stop_of_readItems {ended : Option Text} (read : readItems body = (items, ended)) :
    Literal.stop ⟨items, u.byteSize, ended.isSome⟩ = ended.elim (u ++ '"' :: body).byteSize fun _ =>
      u.byteSize + 1 + Text.byteSize (items.flatMap Item.spelling) + 1 := by
  have quote : '"'.utf8Size = 1 := rfl
  cases ended with
  | none =>
    rw [Literal.stop, Option.isSome_none, spelling_unterminated, ← eq_spelling_of_readItems read, ← Text.byteSize_append]
    rfl
  | some after =>
    rw [Option.isSome_some, stop_quoted, quoted]
    simp only [Text.byteSize_append, Text.byteSize_cons, Text.byteSize_nil, quote, Option.elim_some]
    omega

theorem readAt_eq {ended : Option Text} (split : t = u ++ '"' :: body) (read : readItems body = (items, ended)) :
    readAt t u.byteSize = .ok (Literal.spanned ⟨items, u.byteSize, ended.isSome⟩) := by
  have rest : t.dropBytes (u.byteSize + 1) = .ok body := by
    refine Text.dropBytes_eq (split.trans (List.append_cons u '"' body)) ?_
    rw [Text.byteSize_append]
    rfl
  have opened : (Scanner.start.step '"').2 = ⟨true, false, 0⟩ := rfl
  rw [readAt, rest, ok_bind, opened, quoteOffset?_eq, read, Literal.spanned, stop_of_readItems read, ← split]
  cases ended <;> rfl

/-- The literals from a quote on are the one that begins with it and those from its end on. -/
theorem exists_literalsFrom_quote {ended : Option Text} (u : Text) (read : readItems after = (items, ended)) :
    ∃ v rest, after = v ++ rest ∧ Literal.stop ⟨items, u.byteSize, ended.isSome⟩ = (u ++ ['"'] ++ v).byteSize ∧
      literalsFrom u.byteSize ('"' :: after) =
        ⟨items, u.byteSize, ended.isSome⟩ :: literalsFrom (u ++ ['"'] ++ v).byteSize rest := by
  cases ended with
  | none =>
    refine ⟨after, [], (List.append_nil after).symm, ?_, ?_⟩
    · rw [stop_of_readItems read, List.append_cons]
      rfl
    · rw [literalsFrom_unterminated read, literalsFrom]
      rfl
  | some rest =>
    have whole : '"' :: after = quoted items ++ rest := eq_quoted_of_readItems read
    have split : after = items.flatMap Item.spelling ++ ['"'] ++ rest := (List.cons.inj whole).2
    have stop : Literal.stop ⟨items, u.byteSize, true⟩ = (u ++ ['"'] ++ (items.flatMap Item.spelling ++ ['"'])).byteSize := by
      rw [stop_quoted, ← List.append_cons]
      rfl
    refine ⟨items.flatMap Item.spelling ++ ['"'], rest, split, stop, ?_⟩
    rw [literalsFrom_terminated read, stop]
    rfl

/-- The literals of a text are found by byte offsets. -/
theorem literalTurn_runs (t : Text) : Runs (literalTurn t) 0 ((literals t).map Literal.spanned) := by
  refine runs_seek (u := []) (fun u t => (literalsFrom u.byteSize t).map Literal.spanned)
    (List.cons_ne_nil _ _) ?_ ?_ ?_ rfl
  · intro u
    rw [literalsFrom]
    rfl
  · intro u c t elsewhere
    have notQuote : c ≠ '"' := by
      rintro rfl
      exact elsewhere ⟨t, rfl⟩
    rw [literalsFrom_other notQuote, Text.byteSize_append]
    rfl
  · intro u after split
    cases read : readItems after with
    | mk items ended =>
    obtain ⟨v, rest, after_eq, stop, listed⟩ := exists_literalsFrom_quote u read
    refine .found after_eq ?_ (congrArg (List.map Literal.spanned) listed)
    rw [readAt_eq split read, ← stop]
    rfl

/-- The literal that makes up a text, among those that are found in the text without the white space around it. -/
def alone? (t : Text) (found : List Spanned) : Option Spanned :=
  if t.trim.head? = some '"' then
    match found with
    | [one] =>
      if one.literal.terminated ∧ one.stop = t.trim.byteSize then
        some (one.shift (t.byteSize - t.trimStart.byteSize))
      else none
    | _ => none
  else none

theorem start_of_head? (quote : t.head? = some '"') {l : Literal} {ls : List Literal} (first : literals t = l :: ls) :
    l.start = 0 := by
  obtain ⟨body, rfl⟩ := List.head?_eq_some_iff.mp quote
  cases read : readItems body with
  | mk items ended =>
  obtain ⟨v, rest, -, -, listed⟩ := exists_literalsFrom_quote [] read
  obtain ⟨rfl, -⟩ := List.cons.inj (first.symm.trans listed)
  rfl

theorem alone?_literals (t : Text) : alone? t ((literals t.trim).map Literal.spanned) = (single? t).map Literal.spanned := by
  cases single : single? t with
  | some l =>
    obtain ⟨found, only, terminated, -, last, rfl⟩ := single?_iff_literals.mp single
    obtain ⟨items, -, trimmed, -⟩ := single?_eq_some_iff.mp single
    unfold alone?
    rw [if_pos (by rw [trimmed]; rfl), only]
    simp only [List.map_cons, List.map_nil]
    rw [if_pos ⟨terminated, last⟩, Literal.shift_spanned, Text.byteSize_sub_trimStart]
    rfl
  | none =>
    unfold alone?
    split
    next quote =>
      split
      next one only =>
        obtain ⟨found, others, split, rfl, none⟩ := List.map_eq_cons_iff.mp only
        obtain rfl := List.map_eq_nil_iff.mp none
        refine if_neg fun complete => ?_
        have all := single?_iff_literals.mpr ⟨found, split, complete.1, start_of_head? quote split, complete.2, rfl⟩
        rw [single] at all
        cases all
      next => rfl
    next => rfl

end

/-- The literal at the very start of a text, if the text begins with a quote. -/
def leadingAt (t : Text) : Except OffBoundary (Option Spanned) :=
  if t.head? = some '"' then some <$> readAt t 0 else .ok none

/-- Visits the keyword of a label at a byte offset. -/
def visitKeyword (keyword source : Text) (start : Nat) : Except OffBoundary (Turn Spanned) := do
  let stop := start + keyword.byteSize
  let before ← source.takeBytes start
  if endsInIdentifier before.reverse then return .passed stop
  else
    let after ← source.dropBytes stop
    if after.trimStart.byteSize = after.byteSize then return .passed stop
    else
      match ← leadingAt after.trimStart with
      | none => return .passed stop
      | some found =>
        if found.literal.terminated then
          let label := found.shift (source.byteSize - after.trimStart.byteSize)
          return .found label label.stop
        else return .passed stop

def labelTurn (keyword source : Text) : Nat → Except OffBoundary (Turn Spanned) :=
  seek keyword source (visitKeyword keyword source)

section
variable {keyword source u after : Text}

theorem leadingAt_eq (t : Text) : leadingAt t = .ok ((leading? t).map Literal.spanned) := by
  rw [leadingAt, leading?.eq_def]
  split
  next quote =>
    obtain ⟨body, rfl⟩ := List.head?_eq_some_iff.mp quote
    cases read : readItems body with
    | mk items ended =>
    have leading := readAt_eq (u := []) rfl read
    rw [List.nil_append] at leading
    rw [show 0 = Text.byteSize [] from rfl, leading]
    simp [read]
  next other =>
    split
    next body => exact absurd rfl other
    next => rfl

theorem byteSize_trimStart_eq_iff (t : Text) : t.trimStart.byteSize = t.byteSize ↔ t.takeWhile isBlank = [] := by
  have split : t.takeWhile isBlank ++ t.trimStart = t := List.takeWhile_append_dropWhile
  have size := congrArg Text.byteSize split
  rw [Text.byteSize_append] at size
  constructor
  · intro same
    exact Text.eq_nil_of_byteSize_eq_zero (by omega)
  · intro none
    rw [none, Text.byteSize_nil] at size
    omega

/-- A visit of a keyword comes to what is read after it. -/
theorem visitKeyword_eq (split : source = u ++ (keyword ++ after)) : visitKeyword keyword source u.byteSize =
    match readLabel u.reverse after with
    | .found l _ => .ok (.found (l.shift (u ++ keyword).byteSize).spanned (l.shift (u ++ keyword).byteSize).stop)
    | _ => .ok (.passed (u ++ keyword).byteSize) := by
  have before : source.takeBytes u.byteSize = .ok u := Text.takeBytes_eq split rfl
  have behind : source.dropBytes (u ++ keyword).byteSize = .ok after :=
    Text.dropBytes_eq (split.trans (List.append_assoc ..).symm) rfl
  have offset : source.byteSize - after.trimStart.byteSize =
      (u ++ keyword).byteSize + Text.byteSize (after.takeWhile isBlank) := by
    have whole : source = u ++ keyword ++ after.takeWhile isBlank ++ after.trimStart := by
      rw [List.append_assoc _ _ after.trimStart, Text.trimStart, List.takeWhile_append_dropWhile, split, List.append_assoc]
    rw [whole, Text.byteSize_append, Nat.add_sub_cancel, Text.byteSize_append]
  have trimmed : after.dropWhile isBlank = after.trimStart := rfl
  rw [visitKeyword, before, ok_bind, ← Text.byteSize_append, readLabel, trimmed]
  split
  · rfl
  · rw [behind, ok_bind]
    cases gap : after.takeWhile isBlank with
    | nil =>
      rw [if_pos ((byteSize_trimStart_eq_iff after).mpr gap)]
      rfl
    | cons c white =>
      rw [if_neg ((byteSize_trimStart_eq_iff after).not.mpr (by simp [gap])), leadingAt_eq, ok_bind, offset]
      cases leading? after.trimStart with
      | none => rfl
      | some l =>
        have shifted : l.spanned.shift ((u ++ keyword).byteSize + Text.byteSize (c :: white)) =
            ((l.shift (Text.byteSize (c :: white))).shift (u ++ keyword).byteSize).spanned := by
          rw [Literal.shift_spanned, Literal.shift, Literal.shift, Literal.shift, Nat.add_assoc]
        have kept : l.spanned.literal.terminated = l.terminated := rfl
        dsimp only [Option.map_some]
        rw [gap, shifted, kept]
        by_cases terminated : l.terminated
        · rw [if_pos terminated, if_pos terminated]
          rfl
        · rw [if_neg terminated, if_neg terminated]
          rfl

theorem agrees_visitKeyword (split : source = u ++ (keyword ++ after)) (nonempty : keyword ≠ []) :
    Agrees (visitKeyword keyword source) (fun u t => (labelsFrom keyword u t).map Literal.spanned) u keyword after := by
  have visit := visitKeyword_eq split
  rcases readLabel_cases u after with ⟨rejected, -⟩ | ⟨gap, items, rest, rfl, -, -, -, -, found⟩
  · rw [rejected] at visit
    refine .passed (v := []) rfl (by rw [List.append_nil, visit]) ?_
    rw [List.append_nil, labelsFrom_passes (.of_rejected rejected)]
  · rw [found] at visit
    have listed := labelsFrom_found nonempty found
    have place : Literal.shift (u ++ keyword).byteSize ⟨items, gap.byteSize, true⟩ =
        ⟨items, (u ++ keyword ++ gap).byteSize, true⟩ := by
      rw [Literal.shift, ← Text.byteSize_append]
    dsimp only at visit
    rw [place, stop_quoted, List.append_assoc _ gap] at visit
    rw [List.append_assoc _ gap] at listed
    exact .found rfl visit (congrArg (List.map Literal.spanned) listed)

theorem labelTurn_runs (keyword source : Text) :
    Runs (labelTurn keyword source) 0 ((labels keyword source).map Literal.spanned) := by
  by_cases nonempty : keyword = []
  · subst nonempty
    exact .ended (seek_empty 0)
  · rw [labels_eq_labelsFrom]
    refine runs_seek (u := []) (fun u t => (labelsFrom keyword u t).map Literal.spanned) nonempty
      ?_ ?_ (fun u after split => agrees_visitKeyword split nonempty) rfl
    · intro u
      rw [labelsFrom, itemsFrom_nil]
      rfl
    · intro u c t elsewhere
      exact congrArg (List.map Literal.spanned) (labelsFrom_passes (v := [c]) (.char _ elsewhere))

end
end PluginAudit.Code
