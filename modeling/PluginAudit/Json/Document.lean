import PluginAudit.Json.Numeral
import PluginAudit.Json.String

/-!
# JSON documents

A document is one value with white space around it. Arrays and objects nest at most 127 deep. Of
members with one key the last gives the value and the first the place.
-/
namespace PluginAudit.Json

/-- Reads the rest of a word of which the first letter was read. -/
def readWord (offset : Nat) : Text → Text → Except Fault Cursor
  | [], t => .ok ⟨offset, t⟩
  | _ :: _, [] => .error ⟨.endInValue, offset⟩
  | w :: word, c :: t =>
    if c = w then readWord (offset + 1) word t else .error ⟨.expectedWord, offset + 1⟩

section
variable (readItem : Cursor → Except Fault (Json × Cursor))

/-- Reads the elements of an array up to its closing bracket, given those read before in reverse
    order. The budget exceeds the number of characters left, and each element takes some. -/
def readElements : Nat → List Json → Cursor → Except Fault (Json × Cursor)
  | 0, _, c => .error (c.next .endInList)
  | budget + 1, before, c =>
    let c := c.skipSpace
    match c.rest with
    | [] => .error (c.next .endInList)
    | ']' :: _ => .ok (.array before.reverse, c.advance 1)
    | mark :: _ =>
      if before.isEmpty then do
        let (v, c) ← readItem c
        readElements budget [v] c
      else if mark = ',' then
        let c := (c.advance 1).skipSpace
        match c.rest with
        | [] => .error (c.next .endInValue)
        | ']' :: _ => .error (c.next .trailingComma)
        | _ => do
          let (v, c) ← readItem c
          readElements budget (v :: before) c
      else .error (c.next .expectedListEnd)

def readMember (c : Cursor) : Except Fault ((Text × Json) × Cursor) :=
  match c.rest with
  | '"' :: t => do
    let (key, c) ← readString [] (c.offset + 1) t
    let c := c.skipSpace
    match c.rest with
    | ':' :: _ => do
      let (v, c) ← readItem (c.advance 1)
      .ok ((key, v), c)
    | [] => .error (c.next .endInObject)
    | _ => .error (c.next .expectedColon)
  | _ => .error (c.next .expectedKey)

/-- Reads the members of an object up to its closing brace, given those read before. The budget
    exceeds the number of characters left, and each member takes some. -/
def readMembers : Nat → List (Text × Json) → Cursor → Except Fault (Json × Cursor)
  | 0, _, c => .error (c.next .endInObject)
  | budget + 1, before, c =>
    let c := c.skipSpace
    match c.rest with
    | [] => .error (c.next .endInObject)
    | '\x7d' :: _ => .ok (.object before, c.advance 1)
    | mark :: _ =>
      if before.isEmpty then do
        let ((key, v), c) ← readMember readItem c
        readMembers budget (setMember key v before) c
      else if mark = ',' then
        let c := (c.advance 1).skipSpace
        match c.rest with
        | [] => .error (c.next .endInValue)
        | '\x7d' :: _ => .error (c.next .trailingComma)
        | _ => do
          let ((key, v), c) ← readMember readItem c
          readMembers budget (setMember key v before) c
      else .error (c.next .expectedObjectEnd)

end

/-- Reads a value in which so many arrays and objects may nest. -/
def readValue (depth : Nat) (c : Cursor) : Except Fault (Json × Cursor) :=
  let c := c.skipSpace
  match c.rest with
  | [] => .error (c.next .endInValue)
  | first :: t =>
    if first = 'n' then (readWord (c.offset + 1) (lit "ull") t).map fun c => (.null, c)
    else if first = 't' then (readWord (c.offset + 1) (lit "rue") t).map fun c => (.bool true, c)
    else if first = 'f' then (readWord (c.offset + 1) (lit "alse") t).map fun c => (.bool false, c)
    else if first = '-' ∨ first.isDigit then readNumber c
    else if first = '"' then (readString [] (c.offset + 1) t).map fun (s, c) => (.string s, c)
    else if first = '[' then
      match depth with
      | 0 => .error (c.next .tooDeep)
      | depth + 1 => readElements (readValue depth) c.rest.length [] (c.advance 1)
    else if first = '\x7b' then
      match depth with
      | 0 => .error (c.next .tooDeep)
      | depth + 1 => readMembers (readValue depth) c.rest.length [] (c.advance 1)
    else .error (c.next .expectedValue)

def deepest : Nat := 127

def ofText (t : Text) : Except Fault Json := do
  let (v, c) ← readValue deepest ⟨0, t⟩
  let c := c.skipSpace
  if c.rest.isEmpty then .ok v else .error (c.next .trailingCharacters)

end PluginAudit.Json
