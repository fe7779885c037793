import PluginAudit.Text.Blank

/-!
# String literals

A double-quoted literal is a list of items: plain characters, and characters taken by the backslash
before them, so a quote after a backslash does not end the literal. Its value, its spelling and its
unknown escapes are read off the items.
-/
namespace PluginAudit.Code

/-- One item of a literal: a character that stands for itself, or a character after a backslash. -/
inductive Item
  | plain (c : Char)
  | escaped (c : Char)
deriving DecidableEq

namespace Item

def spelling : Item → Text
  | plain c => [c]
  | escaped c => ['\\', c]

/-- What an item stands for. An escape that is not known stands for itself, backslash included. -/
def value : Item → Text
  | plain c => [c]
  | escaped '\\' => ['\\']
  | escaped '"' => ['"']
  | escaped 'n' => ['\n']
  | escaped 't' => ['\t']
  | escaped c => ['\\', c]

def unrecognized? : Item → Option Char
  | plain _ => none
  | escaped c => if c = '\\' ∨ c = '"' ∨ c = 'n' ∨ c = 't' then none else some c

def ofChar (c : Char) : Item :=
  if c = '\\' then escaped '\\'
  else if c = '"' then escaped '"'
  else if c = '\n' then escaped 'n'
  else if c = '\t' then escaped 't'
  else plain c

end Item

/-- A literal found at a byte offset. One that the text ends in is not terminated. -/
structure Literal where
  items : List Item
  start : Nat
  terminated : Bool
deriving DecidableEq

namespace Literal

def value (l : Literal) : Text := l.items.flatMap Item.value

def unrecognized (l : Literal) : List Char := l.items.filterMap Item.unrecognized?

def spelling (l : Literal) : Text :=
  '"' :: (l.items.flatMap Item.spelling ++ if l.terminated then ['"'] else [])

def stop (l : Literal) : Nat := l.start + l.spelling.byteSize

/-- The same literal in a text that has so many bytes more in front. -/
def shift (n : Nat) (l : Literal) : Literal := { l with start := n + l.start }

def ofValue (value : Text) : Literal := ⟨value.map Item.ofChar, 0, true⟩

end Literal

/-- Writes a value as a literal, quotes included. -/
def encode (value : Text) : Text := (Literal.ofValue value).spelling

/-- The items of a literal whose opening quote has been read, and the text after its closing quote,
    if there is one. A backslash at the very end stands for itself. -/
def readItems : Text → List Item × Option Text
  | [] => ([], none)
  | ['\\'] => ([.plain '\\'], none)
  | '\\' :: c :: t =>
    let (items, after) := readItems t
    (.escaped c :: items, after)
  | '"' :: t => ([], some t)
  | c :: t =>
    let (items, after) := readItems t
    (.plain c :: items, after)

theorem eq_spelling_readItems (t : Text) :
    t = (readItems t).1.flatMap Item.spelling ++
      ((readItems t).2.map fun after => '"' :: after).getD [] := by
  fun_induction readItems t with
  | case1 => rfl
  | case2 => rfl
  | case3 c t items after eq ih => simpa [Item.spelling, eq] using ih
  | case4 t => rfl
  | case5 c t _ _ _ items after eq ih => simpa [Item.spelling, eq] using ih

theorem length_after_readItems {t : Text} {items : List Item} {after : Text}
    (read : readItems t = (items, some after)) : after.length < t.length := by
  fun_induction readItems t generalizing items with
  | case1 => simp at read
  | case2 => simp at read
  | case3 c t items' after' eq ih =>
    obtain ⟨-, rfl⟩ := Prod.mk.inj read
    have := ih eq
    simp only [List.length_cons]
    omega
  | case4 t => simp_all
  | case5 c t _ _ _ items' after' eq ih =>
    obtain ⟨-, rfl⟩ := Prod.mk.inj read
    have := ih eq
    simp only [List.length_cons]
    omega

/-- The literal at the very start of a text, if the text begins with a quote. -/
def leading? : Text → Option Literal
  | '"' :: t =>
    let (items, after) := readItems t
    some ⟨items, 0, after.isSome⟩
  | _ => none

/-- Every literal of a text that stands at a byte offset, whatever surrounds it. Only the last can
    be unterminated. -/
def literalsFrom (offset : Nat) (t : Text) : List Literal :=
  match t with
  | [] => []
  | c :: t =>
    if c = '"' then
      match h : readItems t with
      | (items, none) => [⟨items, offset, false⟩]
      | (items, some after) =>
        let l : Literal := ⟨items, offset, true⟩
        have := length_after_readItems h
        l :: literalsFrom l.stop after
    else literalsFrom (offset + c.utf8Size) t
termination_by t.length

def literals (t : Text) : List Literal := literalsFrom 0 t

def literalValues (t : Text) : List Text := (literals t).map Literal.value

/-- The literal that a text consists of, white space around it aside. A concatenation, a name, a
    call, several literals or an unterminated one is none. -/
def single? (t : Text) : Option Literal :=
  match t.trim with
  | '"' :: body =>
    match readItems body with
    | (items, some []) => some ⟨items, Text.byteSize (t.takeWhile isBlank), true⟩
    | _ => none
  | _ => none

end PluginAudit.Code
