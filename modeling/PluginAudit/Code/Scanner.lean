import PluginAudit.Text.Basic

/-!
# The scanner

Source code is read without a grammar of its language. The scanner keeps three facts: whether it is
inside a double-quoted string, whether a backslash there takes the next character, and how many
parentheses are open.
-/
namespace PluginAudit.Code

/-- What a character is, given all that was read before it. -/
inductive Token
  | text
  | quote
  | literal
  | opening
  | closing
  | separator
deriving DecidableEq

/-- The state of a reading: inside a string or not, just after a backslash in a string or not, and
    the number of open parentheses. -/
structure Scanner where
  inString : Bool
  escaped : Bool
  depth : Int
deriving DecidableEq

namespace Scanner

def nested (depth : Int) : Scanner := ⟨false, false, depth⟩

def start : Scanner := nested 0

/-- Whether the next character stands outside every string and parenthesis. -/
def isTopLevel (s : Scanner) : Bool := !s.inString && s.depth == 0

/-- Reads one character. A closing parenthesis that closes nothing is text. -/
def step (s : Scanner) (c : Char) : Token × Scanner :=
  if s.inString then
    if s.escaped then (.literal, { s with escaped := false })
    else if c = '\\' then (.literal, { s with escaped := true })
    else if c = '"' then (.quote, { s with inString := false })
    else (.literal, s)
  else if c = '"' then (.quote, { s with inString := true })
  else if c = '(' then (.opening, { s with depth := s.depth + 1 })
  else if c = ')' then
    if 0 < s.depth then (.closing, { s with depth := s.depth - 1 }) else (.text, s)
  else if c = ',' then (.separator, s)
  else (.text, s)

def run (s : Scanner) (t : Text) : Scanner := t.foldl (fun s c => (s.step c).2) s

@[simp] theorem run_nil (s : Scanner) : s.run [] = s := rfl

@[simp] theorem run_cons (s : Scanner) (c : Char) (t : Text) : s.run (c :: t) = (s.step c).2.run t := rfl

@[simp] theorem run_append (s : Scanner) (t u : Text) : s.run (t ++ u) = (s.run t).run u :=
  List.foldl_append

/-- What each character of a text is, with the state after it. -/
def trace (s : Scanner) : Text → List (Token × Scanner)
  | [] => []
  | c :: t => s.step c :: trace (s.step c).2 t

theorem trace_append (s : Scanner) (t u : Text) : s.trace (t ++ u) = s.trace t ++ (s.run t).trace u := by
  induction t generalizing s with
  | nil => rfl
  | cons c t ih => simp [trace, ih]

/-- The deepest nesting that a scanner of 32 bits can count. -/
def deepest : Int := 0x7FFFFFFF

/-- The trace of a text, unless it nests deeper than can be counted. -/
def trace? (s : Scanner) (t : Text) : Option (List (Token × Scanner)) :=
  let steps := s.trace t
  if steps.all (·.2.depth ≤ deepest) then some steps else none

end Scanner
end PluginAudit.Code
