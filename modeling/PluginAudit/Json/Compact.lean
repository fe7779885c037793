import PluginAudit.Json.Basic
import PluginAudit.Number.Format

/-!
# Compact JSON

A value is written without white space, its members in their order. In strings only what must be
escaped is: quotes, backslashes and control characters.
-/
namespace PluginAudit.Json

/-- Numbers are positional from `0.00001` up to below `10 ^ 16`; an exponent has its sign. -/
def numberFormat : NumberFormat := ⟨-5, 15, ['e'], ['+']⟩

def hexDigit (n : Nat) : Char := Char.ofNat (if n < 10 then '0'.toNat + n else 'a'.toNat + (n - 10))

def compactChar (c : Char) : Text :=
  match c with
  | '"' => ['\\', '"']
  | '\\' => ['\\', '\\']
  | '\x08' => ['\\', 'b']
  | '\x0c' => ['\\', 'f']
  | '\n' => ['\\', 'n']
  | '\r' => ['\\', 'r']
  | '\t' => ['\\', 't']
  | c =>
    if c.toNat < 0x20 then lit "\\u00" ++ [hexDigit (c.toNat / 16), hexDigit (c.toNat % 16)] else [c]

def compactString (t : Text) : Text := '"' :: t.flatMap compactChar ++ ['"']

mutual

def compact : Json → Text
  | null => lit "null"
  | bool b => if b then lit "true" else lit "false"
  | integer n => Text.ofInt n
  | number x => numberFormat.write x
  | string t => compactString t
  | array elements => '[' :: compactElements elements ++ [']']
  | object members => '\x7b' :: compactMembers members ++ ['\x7d']

def compactElements : List Json → Text
  | [] => []
  | [v] => v.compact
  | v :: rest => v.compact ++ ',' :: compactElements rest

def compactMembers : List (Text × Json) → Text
  | [] => []
  | [(key, v)] => compactString key ++ ':' :: v.compact
  | (key, v) :: rest => compactString key ++ ':' :: v.compact ++ ',' :: compactMembers rest

end
end PluginAudit.Json
