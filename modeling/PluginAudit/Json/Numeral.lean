import PluginAudit.Json.Basic
import PluginAudit.Json.Fault

/-!
# Numbers of JSON documents

Digits are collected in a significand of 64 bits. Those that do not fit are dropped, and the
significand is scaled by the exponent that they, the fraction and the written exponent add up to, so
a number of many digits is not always read as the nearest binary number.
-/
namespace PluginAudit.Json

def digitValue (c : Char) : Nat := c.toNat - '0'.toNat

/-- Adds digits to a significand as long as it has at most 64 bits, and counts those left over. -/
def collect (significand : Nat) : Text → Nat × Nat
  | [] => (significand, 0)
  | d :: digits =>
    let more := significand * 10 + digitValue d
    if more < twoTo 64 then collect more digits else (significand, digits.length + 1)

/-- The value of the digits of an exponent if it has at most 31 bits; else the number of digits
    with which it gets too large. -/
def exponentValue (value count : Nat) : Text → Except Nat Nat
  | [] => .ok value
  | d :: digits =>
    let more := value * 10 + digitValue d
    if more < twoTo 31 then exponentValue more (count + 1) digits else .error (count + 1)

/-- A number as it is written: its sign, the digits of its parts, and the sign and the place of its
    exponent. -/
structure Numeral where
  negative : Bool
  whole : Text
  fraction : Option Text
  exponent : Option (Bool × Nat × Text)

def Cursor.digits (c : Cursor) : Text × Cursor :=
  let digits := c.rest.takeWhile Char.isDigit
  (digits, c.advance digits.length)

/-- Reads the digits before the point; only a single one may be zero. -/
def readWhole (c : Cursor) : Except Fault (Text × Cursor) :=
  match c.digits with
  | ([], _) => .error (if c.rest.isEmpty then c.here .endInValue else ⟨.invalidNumber, c.offset + 1⟩)
  | ('0' :: _ :: _, _) => .error ⟨.invalidNumber, c.offset + 2⟩
  | (digits, after) => .ok (digits, after)

def readFraction (c : Cursor) : Except Fault (Option Text × Cursor) :=
  match c.rest with
  | '.' :: _ =>
    let c := c.advance 1
    match c.digits with
    | ([], _) => .error (c.next (if c.rest.isEmpty then .endInValue else .invalidNumber))
    | (digits, after) => .ok (some digits, after)
  | _ => .ok (none, c)

def readExponent (c : Cursor) : Except Fault (Option (Bool × Nat × Text) × Cursor) :=
  match c.rest with
  | [] => .ok (none, c)
  | mark :: rest =>
    if mark = 'e' ∨ mark = 'E' then
      let (negative, c) :=
        match rest with
        | '+' :: _ => (false, c.advance 2)
        | '-' :: _ => (true, c.advance 2)
        | _ => (false, c.advance 1)
      match c.digits with
      | ([], _) =>
        .error (if c.rest.isEmpty then c.here .endInValue else ⟨.invalidNumber, c.offset + 1⟩)
      | (digits, after) => .ok (some (negative, c.offset, digits), after)
    else .ok (none, c)

/-- The number of a significand and a decimal exponent; `none` when it is beyond the largest. -/
def scaled? (negative : Bool) (significand : Nat) (exponent : Int) : Option Json := do
  let a ← Magnitude.nearest? significand 1
  return .number ⟨negative, ← a.scale? exponent⟩

/-- The value of a number that ends at a byte offset. -/
def Numeral.value (n : Numeral) (stop : Nat) : Except Fault Json :=
  let (significand, dropped) := collect 0 n.whole
  match n.fraction, n.exponent, dropped with
  | none, none, 0 =>
    if !n.negative then .ok (.integer significand)
    else if 0 < significand ∧ significand ≤ twoTo 63 then .ok (.integer (-significand))
    else
      match scaled? true significand 0 with
      | some v => .ok v
      | none => .error ⟨.outOfRange, stop⟩
  | fraction, exponent, dropped =>
    let digits := fraction.getD []
    let (significand, left) := collect significand digits
    let places : Int := Int.ofNat dropped - Int.ofNat (digits.length - left)
    let (below, start, digits) := exponent.getD (false, stop, [])
    match exponentValue 0 0 digits with
    | .error count =>
      if significand = 0 ∨ below then .ok (.number ⟨n.negative, .zero⟩)
      else .error ⟨.outOfRange, start + count⟩
    | .ok e =>
      match scaled? n.negative significand (if below then places - e else places + e) with
      | some v => .ok v
      | none => .error ⟨.outOfRange, stop⟩

def readNumber (c : Cursor) : Except Fault (Json × Cursor) := do
  let (negative, c) :=
    match c.rest with
    | '-' :: _ => (true, c.advance 1)
    | _ => (false, c)
  let (whole, c) ← readWhole c
  let (fraction, c) ← readFraction c
  let (exponent, c) ← readExponent c
  let v ← Numeral.value ⟨negative, whole, fraction, exponent⟩ c.offset
  return (v, c)

end PluginAudit.Json
