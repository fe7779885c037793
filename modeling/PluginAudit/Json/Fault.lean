import PluginAudit.Text.Basic

/-!
# Faults of JSON documents

A document that is not JSON has one fault: what is wrong, and the number of bytes read when it is
noticed. Some faults are noticed on the byte that would come next, which then counts as read.
-/
namespace PluginAudit.Json

inductive Cause
  | endInValue
  | endInList
  | endInObject
  | endInString
  | expectedValue
  | expectedWord
  | expectedListEnd
  | expectedObjectEnd
  | expectedColon
  | expectedKey
  | trailingComma
  | trailingCharacters
  | tooDeep
  | controlCharacter
  | invalidEscape
  | unfinishedPair
  | loneSurrogate
  | invalidNumber
  | outOfRange
deriving DecidableEq

def Cause.message : Cause → Text
  | endInValue => lit "EOF while parsing a value"
  | endInList => lit "EOF while parsing a list"
  | endInObject => lit "EOF while parsing an object"
  | endInString => lit "EOF while parsing a string"
  | expectedValue => lit "expected value"
  | expectedWord => lit "expected ident"
  | expectedListEnd => lit "expected `,` or `]`"
  | expectedObjectEnd => lit "expected `,` or `\x7d`"
  | expectedColon => lit "expected `:`"
  | expectedKey => lit "key must be a string"
  | trailingComma => lit "trailing comma"
  | trailingCharacters => lit "trailing characters"
  | tooDeep => lit "recursion limit exceeded"
  | controlCharacter => lit "control character (\\u0000-\\u001F) found while parsing a string"
  | invalidEscape => lit "invalid escape"
  | unfinishedPair => lit "unexpected end of hex escape"
  | loneSurrogate => lit "lone leading surrogate in hex escape"
  | invalidNumber => lit "invalid number"
  | outOfRange => lit "number out of range"

structure Fault where
  cause : Cause
  read : Nat
deriving DecidableEq

/-- The line, counted from one, and the column that so many bytes of a text lead to, from a given
    place on. The column counts the bytes after the last line feed. -/
def positionFrom (line column : Nat) : Text → Nat → Nat × Nat
  | _, 0 => (line, column)
  | [], _ => (line, column)
  | c :: t, n =>
    if c = '\n' then positionFrom (line + 1) 0 t (n - 1)
    else if n < c.utf8Size then (line, column + n)
    else positionFrom line (column + c.utf8Size) t (n - c.utf8Size)

def Fault.message (document : Text) (f : Fault) : Text :=
  let (line, column) := positionFrom 1 0 document f.read
  f.cause.message ++ lit " at line " ++ Text.ofNat line ++ lit " column " ++ Text.ofNat column

/-- What is left of a document after so many bytes. -/
structure Cursor where
  offset : Nat
  rest : Text
deriving DecidableEq

namespace Cursor

/-- A fault at the bytes read so far. -/
def here (c : Cursor) (cause : Cause) : Fault := ⟨cause, c.offset⟩

/-- A fault on the next byte, or at the end of the document. -/
def next (c : Cursor) (cause : Cause) : Fault :=
  ⟨cause, if c.rest.isEmpty then c.offset else c.offset + 1⟩

/-- The cursor after so many characters of one byte each. -/
def advance (c : Cursor) (n : Nat) : Cursor := ⟨c.offset + n, c.rest.drop n⟩

def isSpace (c : Char) : Bool := c == ' ' || c == '\t' || c == '\n' || c == '\r'

def skipSpace (c : Cursor) : Cursor := c.advance (c.rest.takeWhile isSpace).length

end Cursor
end PluginAudit.Json
