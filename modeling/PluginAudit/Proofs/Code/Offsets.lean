import PluginAudit.Proofs.Code.LeftmostCall
import PluginAudit.Proofs.Code.LeftmostLabel
import PluginAudit.Proofs.Code.Pieces

/-!
# Reading by byte offsets

Calls and arguments can also be looked for with nothing but byte offsets: a search keeps a position in the whole
text and cuts parts out of it, and a cut outside the text or inside a character fails. Such a search is a run of
turns (`Runs`) that never fails and finds what is found by reading character by character (`Marker.runs_turn`,
`argumentsAt_eq`).
-/
namespace PluginAudit

open Code (OffBoundary)

namespace Text

/-- The two parts of a text around a byte offset. -/
def cut (t : Text) (offset : Nat) : Except OffBoundary (Text × Text) := (t.splitAt? offset).elim (.error ⟨offset⟩) .ok

def dropBytes (t : Text) (start : Nat) : Except OffBoundary Text := (t.cut start).map Prod.snd

def takeBytes (t : Text) (stop : Nat) : Except OffBoundary Text := (t.cut stop).map Prod.fst

/-- The text between two byte offsets, of which the first is not after the second. -/
def extract (t : Text) (start stop : Nat) : Except OffBoundary Text := do
  (← t.takeBytes stop).dropBytes start

/-- The byte offset of the first occurrence of a word. -/
def find? (word : Text) : Text → Option Nat
  | [] => if word = [] then some 0 else none
  | c :: t => if word <+: c :: t then some 0 else (find? word t).map (c.utf8Size + ·)

variable {t before part after word : Text} {start stop : Nat}

/-- A text is cut at its boundaries and nowhere else. -/
theorem cut_eq_ok_iff : t.cut start = .ok (before, after) ↔ t = before ++ after ∧ before.byteSize = start := by
  rw [cut, ← splitAt?_eq_some_iff]
  cases t.splitAt? start <;> simp

theorem dropBytes_eq (split : t = before ++ after) (size : start = before.byteSize) : t.dropBytes start = .ok after := by
  rw [dropBytes, cut_eq_ok_iff.mpr ⟨split, size.symm⟩]
  rfl

theorem takeBytes_eq (split : t = before ++ after) (size : stop = before.byteSize) : t.takeBytes stop = .ok before := by
  rw [takeBytes, cut_eq_ok_iff.mpr ⟨split, size.symm⟩]
  rfl

/-- What is cut out between two byte offsets is the part of the text between them, if there is one. -/
theorem extract_eq_ok_iff : t.extract start stop = .ok part ↔ t.Slice start stop part := by
  constructor
  · intro extracted
    rw [extract, takeBytes] at extracted
    cases upTo : t.cut stop with
    | error off =>
      rw [upTo] at extracted
      cases extracted
    | ok parts =>
      obtain ⟨whole, after⟩ := parts
      obtain ⟨rfl, rfl⟩ := cut_eq_ok_iff.mp upTo
      rw [upTo] at extracted
      change (whole.cut start).map Prod.snd = .ok part at extracted
      cases within : whole.cut start with
      | error off =>
        rw [within] at extracted
        cases extracted
      | ok parts =>
        obtain ⟨before, part'⟩ := parts
        obtain ⟨rfl, rfl⟩ := cut_eq_ok_iff.mp within
        rw [within] at extracted
        cases extracted
        exact ⟨before, after, rfl, rfl, rfl⟩
  · rintro ⟨before, after, rfl, rfl, rfl⟩
    rw [extract, takeBytes_eq rfl rfl]
    exact dropBytes_eq rfl rfl

theorem find?_append (word after : Text) : find? word (word ++ after) = some 0 := by
  cases whole : word ++ after with
  | nil => rw [find?, if_pos (List.append_eq_nil_iff.mp whole).1]
  | cons c t => rw [find?, if_pos (whole ▸ List.prefix_append word after)]

theorem find?_cons {c : Char} (elsewhere : ¬ word <+: c :: t) : find? word (c :: t) = (find? word t).map (c.utf8Size + ·) := by
  rw [find?, if_neg elsewhere]

/-- The white space in front of a text is as large as what trimming takes away. -/
theorem byteSize_sub_trimStart (t : Text) : t.byteSize - t.trimStart.byteSize = byteSize (t.takeWhile isBlank) := by
  have split : t.takeWhile isBlank ++ t.trimStart = t := List.takeWhile_append_dropWhile
  have size := congrArg byteSize split
  rw [byteSize_append] at size
  omega

theorem dropBytes_gap (t : Text) : t.dropBytes (byteSize (t.takeWhile isBlank)) = .ok t.trimStart :=
  dropBytes_eq List.takeWhile_append_dropWhile.symm rfl

end Text

namespace Code

/-! ## Runs -/

/-- What a turn of a search comes to. -/
inductive Turn (α : Type)
  | ended
  | passed (position : Nat)
  | found (item : α) (position : Nat)

/-- A search from a position comes to an end without a failing turn, and these are the items that are found. -/
inductive Runs {α : Type} (turn : Nat → Except OffBoundary (Turn α)) : Nat → List α → Prop
  | ended {position : Nat} (now : turn position = .ok .ended) : Runs turn position []
  | passed {position next : Nat} {items : List α} (now : turn position = .ok (.passed next))
      (rest : Runs turn next items) : Runs turn position items
  | found {position next : Nat} {item : α} {items : List α} (now : turn position = .ok (.found item next))
      (rest : Runs turn next items) : Runs turn position (item :: items)

/-- A turn looks for the next occurrence of a word and visits it. The empty word is not looked for. -/
def seek {α : Type} (word source : Text) (visit : Nat → Except OffBoundary (Turn α)) (position : Nat) :
    Except OffBoundary (Turn α) := do
  if word = [] then return .ended
  else
    match Text.find? word (← source.dropBytes position) with
    | none => return .ended
    | some found => visit (position + found)

@[simp] theorem ok_bind {α β : Type} (a : α) (f : α → Except OffBoundary β) : (Except.ok a >>= f) = f a := rfl

section
variable {α : Type} {turn : Nat → Except OffBoundary (Turn α)} {position position' : Nat} {items items' : List α}

theorem Runs.unique (runs : Runs turn position items) (runs' : Runs turn position items') : items = items' := by
  induction runs generalizing items' with
  | ended now =>
    cases runs' with
    | ended _ => rfl
    | passed now' _ => cases now.symm.trans now'
    | found now' _ => cases now.symm.trans now'
  | passed now _ ih =>
    cases runs' with
    | ended now' => cases now.symm.trans now'
    | passed now' rest =>
      cases now.symm.trans now'
      exact ih rest
    | found now' _ => cases now.symm.trans now'
  | found now _ ih =>
    cases runs' with
    | ended now' => cases now.symm.trans now'
    | passed now' _ => cases now.symm.trans now'
    | found now' rest =>
      cases now.symm.trans now'
      rw [ih rest]

theorem Runs.iff_eq (runs : Runs turn position items) : Runs turn position items' ↔ items' = items :=
  ⟨fun runs' => runs'.unique runs, fun same => same ▸ runs⟩

theorem Runs.congr (same : turn position = turn position') (runs : Runs turn position' items) :
    Runs turn position items := by
  cases runs with
  | ended now => exact .ended (same.trans now)
  | passed now rest => exact .passed (same.trans now) rest
  | found now rest => exact .found (same.trans now) rest

variable {word source u t : Text} {visit : Nat → Except OffBoundary (Turn α)}

theorem seek_empty (position : Nat) : seek [] source visit position = .ok .ended := rfl

theorem seek_nil (nonempty : word ≠ []) : seek word u visit u.byteSize = .ok .ended := by
  rw [seek, if_neg nonempty, Text.dropBytes_eq (List.append_nil u).symm rfl, ok_bind, Text.find?, if_neg nonempty]
  rfl

theorem seek_char {c : Char} (elsewhere : ¬ word <+: c :: t) (split : source = u ++ c :: t) :
    seek word source visit u.byteSize = seek word source visit (u ++ [c]).byteSize := by
  have nonempty : word ≠ [] := by
    rintro rfl
    exact elsewhere List.nil_prefix
  have here : source.dropBytes u.byteSize = .ok (c :: t) := Text.dropBytes_eq split rfl
  have next : source.dropBytes (u ++ [c]).byteSize = .ok t :=
    Text.dropBytes_eq (split.trans (List.append_cons u c t)) rfl
  rw [seek, seek, if_neg nonempty, if_neg nonempty, here, next, ok_bind, ok_bind, Text.find?_cons elsewhere]
  cases Text.find? word t with
  | none => rfl
  | some found => simp [Nat.add_assoc]

theorem seek_word {after : Text} (nonempty : word ≠ []) (split : source = u ++ (word ++ after)) :
    seek word source visit u.byteSize = visit u.byteSize := by
  rw [seek, if_neg nonempty, Text.dropBytes_eq split rfl, ok_bind, Text.find?_append]
  rfl

/-- A visit of an occurrence agrees with what is listed from there: it passes on to a later place from which
    the same is listed, or it finds the first of what is listed and goes on to where the others are listed from. -/
inductive Agrees (visit : Nat → Except OffBoundary (Turn α)) (listed : Text → Text → List α) (u word after : Text) : Prop
  | passed {v rest : Text} (split : after = v ++ rest) (now : visit u.byteSize = .ok (.passed (u ++ word ++ v).byteSize))
      (same : listed u (word ++ after) = listed (u ++ word ++ v) rest)
  | found {v rest : Text} {item : α} (split : after = v ++ rest)
      (now : visit u.byteSize = .ok (.found item (u ++ word ++ v).byteSize))
      (first : listed u (word ++ after) = item :: listed (u ++ word ++ v) rest)

/-- A search whose visits agree with what is listed finds what is listed. -/
theorem runs_seek (listed : Text → Text → List α) (nonempty : word ≠ []) (none : ∀ u, listed u [] = [])
    (char : ∀ u c t, ¬ word <+: c :: t → listed u (c :: t) = listed (u ++ [c]) t)
    (agrees : ∀ u after, source = u ++ (word ++ after) → Agrees visit listed u word after)
    (split : source = u ++ t) : Runs (seek word source visit) u.byteSize (listed u t) := by
  induction u, t using word_induction nonempty with
  | nil u =>
    obtain rfl : source = u := split.trans (List.append_nil u)
    rw [none]
    exact .ended (seek_nil nonempty)
  | char u c t elsewhere ih =>
    rw [char u c t elsewhere]
    exact (ih (split.trans (List.append_cons u c t))).congr (seek_char elsewhere split)
  | occurrence u after ih =>
    have here : seek word source visit u.byteSize = visit u.byteSize := seek_word nonempty split
    cases agrees u after split with
    | @passed v rest after_eq now same =>
      rw [same]
      exact .passed (here.trans now) (ih v rest after_eq (by simpa [after_eq] using split))
    | @found v rest item after_eq now first =>
      rw [first]
      exact .found (here.trans now) (ih v rest after_eq (by simpa [after_eq] using split))

end

/-! ## Calls -/

/-- Takes the argument text that begins at a byte offset. After a call that is not closed nothing is found. -/
def takeBlock (source : Text) (body : Nat) : Except OffBoundary (Turn Block) := do
  match ← closingOffset source body with
  | none => return .passed source.byteSize
  | some close => return .found ⟨body, ← source.extract body close⟩ (close + 1)

def Marker.visit (marker : Marker) (source : Text) (start : Nat) : Except OffBoundary (Turn Block) := do
  let stop := start + marker.name.byteSize
  let before ← source.takeBytes start
  if marker.fits before.reverse then
    let after ← source.dropBytes stop
    let gap := after.byteSize - after.trimStart.byteSize
    let opening ← after.dropBytes gap
    if opening.head? = some '(' then takeBlock source (stop + gap + 1) else return .passed stop
  else return .passed stop

def Marker.turn (marker : Marker) (source : Text) : Nat → Except OffBoundary (Turn Block) :=
  seek marker.name source (marker.visit source)

section
variable {marker : Marker} {source u after : Text}

/-- What a visit of a name comes to, by the text before and after it. -/
theorem Marker.visit_eq (split : source = u ++ (marker.name ++ after)) :
    marker.visit source u.byteSize =
      if marker.fits u.reverse ∧ after.trimStart.head? = some '(' then
        takeBlock source (u ++ marker.name ++ after.takeWhile isBlank ++ ['(']).byteSize
      else .ok (.passed (u ++ marker.name).byteSize) := by
  have before : source.takeBytes u.byteSize = .ok u := Text.takeBytes_eq split rfl
  have behind : source.dropBytes (u ++ marker.name).byteSize = .ok after :=
    Text.dropBytes_eq (split.trans (List.append_assoc ..).symm) rfl
  have parenthesis : (u ++ marker.name ++ after.takeWhile isBlank ++ ['(']).byteSize =
      (u ++ marker.name).byteSize + Text.byteSize (after.takeWhile isBlank) + 1 := by
    rw [Text.byteSize_append, Text.byteSize_append]
    rfl
  rw [parenthesis, Marker.visit, before, ok_bind, ← Text.byteSize_append, behind, ok_bind, Text.byteSize_sub_trimStart]
  dsimp only
  rw [Text.dropBytes_gap, ok_bind]
  by_cases fits : marker.fits u.reverse
  · by_cases opens : after.trimStart.head? = some '('
    · rw [if_pos fits, if_pos opens, if_pos ⟨fits, opens⟩]
    · rw [if_pos fits, if_neg opens, if_neg fun both => opens both.2]
      rfl
  · rw [if_neg fits, if_neg fun both => fits both.1]
    rfl

theorem takeBlock_closed {opening inner last : Text}
    (closed : balanced? (.nested 1) (inner ++ ')' :: last) = some (inner, last)) :
    takeBlock (opening ++ (inner ++ ')' :: last)) opening.byteSize =
      .ok (.found ⟨opening.byteSize, inner⟩ (opening ++ inner ++ [')']).byteSize) := by
  have close : (opening ++ inner ++ [')']).byteSize = opening.byteSize + inner.byteSize + 1 := by
    rw [Text.byteSize_append, Text.byteSize_append]
    rfl
  have text : (opening ++ (inner ++ ')' :: last)).extract opening.byteSize (opening.byteSize + inner.byteSize) = .ok inner :=
    Text.extract_eq_ok_iff.mpr ⟨opening, ')' :: last, (List.append_assoc ..).symm, rfl, Text.byteSize_append ..⟩
  rw [takeBlock, closingOffset_append, closed, ok_bind, close]
  dsimp only [Option.map_some]
  rw [text]
  rfl

theorem Marker.agrees_visit (nonempty : marker.name ≠ []) (split : source = u ++ (marker.name ++ after)) :
    Agrees (marker.visit source) (blocksFrom marker) u marker.name after := by
  have visit := Marker.visit_eq split
  rcases marker.read_cases u after with ⟨rejected, noCall⟩ | ⟨gap, rest, rfl, follows, white, read⟩
  · rw [if_neg] at visit
    · refine .passed (v := []) rfl (by rw [List.append_nil, visit]) ?_
      rw [List.append_nil, blocksFrom_passes (.of_rejected rejected)]
    · rintro ⟨fits, opens⟩
      obtain ⟨rest, opening⟩ := List.head?_eq_some_iff.mp opens
      refine noCall ⟨after.takeWhile isBlank, rest, ?_, (marker.fits_iff u).mp fits, List.all_takeWhile⟩
      rw [← opening]
      exact List.takeWhile_append_dropWhile.symm
  · obtain ⟨blank, opening⟩ := gap_eq white rest
    rw [blank, Text.trimStart, opening, if_pos ⟨(marker.fits_iff u).mpr follows, rfl⟩] at visit
    have source_eq : source = u ++ marker.name ++ gap ++ ['('] ++ rest := by simpa using split
    rcases read with ⟨unfinished, unclosed⟩ | ⟨inner, last, found, closed⟩
    · have stop : takeBlock source (u ++ marker.name ++ gap ++ ['(']).byteSize = .ok (.passed source.byteSize) := by
        rw [source_eq, takeBlock, closingOffset_append, unclosed]
        rfl
      refine .passed (List.append_nil _).symm (by rw [visit, stop, split, List.append_assoc]) ?_
      rw [blocksFrom, itemsFrom_unfinished nonempty unfinished, blocksFrom, itemsFrom_nil]
    · obtain rfl := eq_of_balanced? closed
      rw [source_eq, takeBlock_closed closed] at visit
      have passed : u ++ marker.name ++ (gap ++ '(' :: (inner ++ [')'])) =
          u ++ marker.name ++ gap ++ ['('] ++ inner ++ [')'] := by simp
      have after_eq : gap ++ '(' :: (inner ++ ')' :: last) = gap ++ '(' :: (inner ++ [')']) ++ last := by simp
      refine .found after_eq (by rw [source_eq, visit, passed]) ?_
      rw [blocksFrom_found nonempty found, passed]

/-- The calls of a text are found by byte offsets. -/
theorem Marker.runs_turn (marker : Marker) (source : Text) : Runs (marker.turn source) 0 (blocks marker source) := by
  by_cases nonempty : marker.name = []
  · have none : blocks marker source = [] := by
      rw [blocks, nonempty]
      rfl
    rw [none, turn, nonempty]
    exact .ended (seek_empty 0)
  · rw [blocks_eq_blocksFrom]
    exact runs_seek (u := []) (blocksFrom marker) nonempty (fun u => itemsFrom_nil u)
      (fun u c t elsewhere => blocksFrom_passes (v := [c]) (.char _ elsewhere)) (fun u after => agrees_visit nonempty) rfl

end

/-! ## Arguments -/

/-- The arguments of a text from the one on that begins at `start`, when the scanner has come to the byte
    offset `place` and what follows there is left to be read. -/
def argumentsFrom (t : Text) (s : Scanner) (start place : Nat) : Text → Except OffBoundary (List Text)
  | [] => do return [(← t.dropBytes start).trim]
  | c :: rest => do
    let (token, s) := s.step c
    if token = .separator ∧ s.depth = 0 then
      let argument ← t.extract start place
      return argument.trim :: (← argumentsFrom t s (place + 1) (place + c.utf8Size) rest)
    else argumentsFrom t s start (place + c.utf8Size) rest

/-- The arguments that a text lists. -/
def argumentsAt (t : Text) : Except OffBoundary (List Text) :=
  if t.trim = [] then .ok [] else argumentsFrom t .start 0 0 t

theorem prepend_nil_pieces (s : Scanner) (t : Text) : prepend [] (pieces s t) = pieces s t := by
  cases eq : pieces s t with
  | nil => exact absurd eq (pieces_ne_nil s t)
  | cons piece others => rfl

theorem argumentsFrom_eq {t rest : Text} (s : Scanner) (before piece : Text) (split : t = before ++ piece ++ rest) :
    argumentsFrom t s before.byteSize (before ++ piece).byteSize rest =
      .ok ((prepend piece (pieces s rest)).map Text.trim) := by
  induction rest generalizing s before piece with
  | nil =>
    have last : t.dropBytes before.byteSize = .ok piece := Text.dropBytes_eq (split.trans (List.append_nil _)) rfl
    rw [argumentsFrom, last]
    simp [pieces, prepend]
  | cons c rest ih =>
    rw [argumentsFrom, pieces]
    dsimp only
    split
    next cut =>
      -- the argument that is cut off is complete, and the next one begins after the comma
      obtain ⟨rfl, -, -⟩ := Scanner.step_of_separator cut.1
      have argument : t.extract before.byteSize (before ++ piece).byteSize = .ok piece :=
        Text.extract_eq_ok_iff.mpr ⟨before, ',' :: rest, split, rfl, rfl⟩
      have later := ih (s.step ',').2 (before ++ piece ++ [',']) [] (by simp [split])
      have place : (before ++ piece ++ [',']).byteSize = (before ++ piece).byteSize + 1 := Text.byteSize_append ..
      rw [List.append_nil, place, prepend_nil_pieces] at later
      rw [argument, ok_bind, show ','.utf8Size = 1 from rfl, later]
      simp [prepend]
    next =>
      have later := ih (s.step c).2 before (piece ++ [c]) (by simp [split])
      have place : (before ++ (piece ++ [c])).byteSize = (before ++ piece).byteSize + c.utf8Size := by
        simp [Nat.add_assoc]
      rw [place] at later
      rw [later]
      cases pieces (s.step c).2 rest <;> simp [prepend]

theorem argumentsAt_eq (t : Text) : argumentsAt t = .ok (arguments t) := by
  have nothing := t.trim_eq_nil_iff
  cases visible : t.blank with
  | true => rw [argumentsAt, if_pos (nothing.mpr visible), arguments, if_pos visible]
  | false =>
    have whole := argumentsFrom_eq .start [] [] (List.nil_append t).symm
    rw [argumentsAt, if_neg (by simp [nothing, visible]), arguments_of_visible visible, ← prepend_nil_pieces]
    exact whole

end Code
end PluginAudit
