import PluginAudit.Code.Arguments
import PluginAudit.Code.Occurrence

/-!
# Calls

A call is a name, perhaps white space, and a text in balanced parentheses. A plain call may not
continue a longer identifier; a creation has the word `new` in front of its name.
-/
namespace PluginAudit.Code

/-- Which calls to look for. -/
inductive Marker
  | call (name : Text)
  | creation (name : Text)
deriving DecidableEq

def Marker.name : Marker → Text
  | call name => name
  | creation name => name

/-- The text between the parentheses of a call, and its byte offset. -/
structure Block where
  offset : Nat
  text : Text
deriving DecidableEq

/-- Whether a text, given in reverse order, ends in the word `new` and some white space. -/
def endsInNew : Text → Bool
  | [] => false
  | c :: before =>
    isBlank c &&
      match before.dropWhile isBlank with
      | 'w' :: 'e' :: 'n' :: before => !endsInIdentifier before
      | _ => false

/-- Whether a name may stand after a text, which is given in reverse order. -/
def Marker.fits : Marker → Text → Bool
  | call _, before => !endsInIdentifier before
  | creation _, before => endsInNew before

/-- The text up to the parenthesis that closes the outermost open one, and the text after it. -/
def balanced? (s : Scanner) : Text → Option (Text × Text)
  | [] => none
  | c :: t =>
    let (token, s) := s.step c
    if token = .closing ∧ s.depth = 0 then some ([], t)
    else (balanced? s t).map fun (inner, after) => (c :: inner, after)

theorem eq_of_balanced? {s : Scanner} {t inner after : Text} (closed : balanced? s t = some (inner, after)) :
    t = inner ++ ')' :: after := by
  induction t generalizing s inner with
  | nil => simp [balanced?] at closed
  | cons c t ih =>
    have closing : ∀ {s' : Scanner}, s.step c = (.closing, s') → c = ')' := by
      intro s' step
      simp only [Scanner.step] at step
      repeat' split at step
      all_goals simp_all
    simp only [balanced?] at closed
    split at closed
    next ends =>
      obtain ⟨rfl, rfl⟩ := Prod.mk.inj (Option.some.inj closed)
      rw [closing (Prod.ext ends.1 rfl)]
      rfl
    next =>
      obtain ⟨⟨inner', after'⟩, found, eq⟩ := Option.map_eq_some_iff.mp closed
      obtain ⟨rfl, rfl⟩ := Prod.mk.inj eq
      rw [ih found]
      rfl

/-- Reads the gap, the opening parenthesis and the block of a call after its name. A block that
    does not close ends the search. -/
def Marker.read (marker : Marker) (before after : Text) : Reading (Nat × Text) :=
  if marker.fits before then
    let gap := after.takeWhile isBlank
    match after.dropWhile isBlank with
    | '(' :: body =>
      match balanced? (.nested 1) body with
      | none => .unfinished
      | some (inner, _) => .found (Text.byteSize gap + 1, inner) (gap.length + inner.length + 2)
    | _ => .rejected
  else .rejected

def blocks (marker : Marker) (t : Text) : List Block :=
  (occurrences marker.name marker.read t).map fun (nameEnd, gap, inner) => ⟨nameEnd + gap, inner⟩

/-- The argument lists of the calls in a text, each with the byte offset of its block. -/
def calls (marker : Marker) (t : Text) : List (Nat × List Text) :=
  (blocks marker t).map fun block => (block.offset, arguments block.text)

/-- A byte offset that lies past the end of a text or inside one of its characters. -/
structure OffBoundary where
  offset : Nat
deriving DecidableEq

/-- The byte offset of the parenthesis that closes the one just before `body`. -/
def closingOffset (t : Text) (body : Nat) : Except OffBoundary (Option Nat) :=
  match t.splitAt? body with
  | none => .error ⟨body⟩
  | some (_, rest) => .ok ((balanced? (.nested 1) rest).map fun (inner, _) => body + inner.byteSize)

end PluginAudit.Code
