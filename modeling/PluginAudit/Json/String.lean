import PluginAudit.Json.Fault

/-!
# Strings of JSON documents

A string ends at the first quote that no backslash escapes. Characters outside the basic plane
are escaped as a pair of surrogates; a surrogate without its partner is a fault.
-/
namespace PluginAudit.Json

def hexValue? (c : Char) : Option Nat :=
  if '0' ≤ c ∧ c ≤ '9' then some (c.toNat - '0'.toNat)
  else if 'a' ≤ c ∧ c ≤ 'f' then some (c.toNat - 'a'.toNat + 10)
  else if 'A' ≤ c ∧ c ≤ 'F' then some (c.toNat - 'A'.toNat + 10)
  else none

def hexValue4? : Text → Option Nat
  | [a, b, c, d] => do return ((← hexValue? a) * 16 + (← hexValue? b)) * 256 + ((← hexValue? c) * 16 + (← hexValue? d))
  | _ => none

/-- Reads the code unit that four hexadecimal digits give. Four bytes are read before they are
    looked at. -/
def readUnit (offset : Nat) (t : Text) : Except Fault Nat :=
  let digits := t.take 4
  match hexValue4? digits with
  | some n => .ok n
  | none =>
    if Text.byteSize digits < 4 then .error ⟨.endInString, offset + Text.byteSize digits⟩
    else .error ⟨.invalidEscape, offset + 4⟩

def isHighSurrogate (n : Nat) : Bool := 0xD800 ≤ n && n ≤ 0xDBFF

def isLowSurrogate (n : Nat) : Bool := 0xDC00 ≤ n && n ≤ 0xDFFF

/-- Reads a character escaped by code units after `\u`, with the number of characters read. -/
def readUnits (offset : Nat) (t : Text) : Except Fault (Char × Nat) := do
  let n ← readUnit offset t
  if isLowSurrogate n then .error ⟨.loneSurrogate, offset + 4⟩
  else if !isHighSurrogate n then .ok (Char.ofNat n, 4)
  else
    match t.drop 4 with
    | [] => .error ⟨.endInString, offset + 4⟩
    | ['\\'] => .error ⟨.endInString, offset + 5⟩
    | '\\' :: 'u' :: t => do
      let m ← readUnit (offset + 6) t
      if isLowSurrogate m then .ok (Char.ofNat (0x10000 + (n - 0xD800) * 0x400 + (m - 0xDC00)), 10)
      else .error ⟨.loneSurrogate, offset + 10⟩
    | '\\' :: _ => .error ⟨.unfinishedPair, offset + 6⟩
    | _ => .error ⟨.unfinishedPair, offset + 5⟩

/-- Reads an escape after its backslash, with the number of characters read. -/
def readEscape (offset : Nat) : Text → Except Fault (Char × Nat)
  | [] => .error ⟨.endInString, offset⟩
  | '"' :: _ => .ok ('"', 1)
  | '\\' :: _ => .ok ('\\', 1)
  | '/' :: _ => .ok ('/', 1)
  | 'b' :: _ => .ok ('\x08', 1)
  | 'f' :: _ => .ok ('\x0c', 1)
  | 'n' :: _ => .ok ('\n', 1)
  | 'r' :: _ => .ok ('\r', 1)
  | 't' :: _ => .ok ('\t', 1)
  | 'u' :: t => (readUnits (offset + 1) t).map fun (c, n) => (c, n + 1)
  | _ => .error ⟨.invalidEscape, offset + 1⟩

/-- Reads a string to its closing quote, given what was read of it in reverse order. -/
def readString (before : Text) (offset : Nat) (t : Text) : Except Fault (Text × Cursor) :=
  match t with
  | [] => .error ⟨.endInString, offset⟩
  | c :: t =>
    if c = '"' then .ok (before.reverse, ⟨offset + 1, t⟩)
    else if c = '\\' then
      match readEscape (offset + 1) t with
      | .error f => .error f
      | .ok (d, n) => readString (d :: before) (offset + 1 + n) (t.drop n)
    else if c.toNat < 0x20 then .error ⟨.controlCharacter, offset + 1⟩
    else readString (c :: before) (offset + c.utf8Size) t
termination_by t.length
decreasing_by all_goals simp; try omega

end PluginAudit.Json
