import PluginAudit.Text.Basic
import PluginAudit.Text.Numeral

/-!
# Occurrences of a word

A search hands each occurrence of a word to a reader, with the text before and the text after it. It
goes on after what the reader finds, and passes over an occurrence that the reader rejects.
-/
namespace PluginAudit.Code

def isIdentifierChar (c : Char) : Bool := isAlphanumeric c || c == '_' || c == '$'

/-- Whether a text, given in reverse order, ends in an identifier character. -/
def endsInIdentifier (before : Text) : Bool := before.head?.any isIdentifierChar

/-- What a reader makes of an occurrence of a word. -/
inductive Reading (α : Type)
  | rejected
  /-- Nothing is found here, and nothing will be found later. -/
  | unfinished
  /-- Something is found that takes so many characters after the word. -/
  | found (item : α) (length : Nat)

section
variable {α : Type}

/-- Searches for the word `first :: others` in a text that stands at a byte offset, given what
    stands before it in reverse order. Each finding comes with the byte offset after its word. -/
def search (first : Char) (others : Text) (read : Text → Text → Reading α) (offset : Nat)
    (before t : Text) : List (Nat × α) :=
  match t with
  | [] => []
  | c :: t =>
    if c = first then
      match h : Text.after? others t with
      | none => search first others read (offset + c.utf8Size) (c :: before) t
      | some after =>
        have shorter : after.length ≤ t.length := by simp [Text.after?_eq_some_iff.mp h]
        let wordEnd := offset + Text.byteSize (first :: others)
        let passed := others.reverse ++ first :: before
        match read before after with
        | .rejected => search first others read wordEnd passed after
        | .unfinished => []
        | .found item length =>
          let taken := after.take length
          (wordEnd, item) ::
            search first others read (wordEnd + Text.byteSize taken) (taken.reverse ++ passed)
              (after.drop length)
    else search first others read (offset + c.utf8Size) (c :: before) t
termination_by t.length
decreasing_by all_goals simp; try omega

/-- What a reader finds at the occurrences of a word, from left to right. The empty word has no
    occurrence. -/
def occurrences (word : Text) (read : Text → Text → Reading α) (t : Text) : List (Nat × α) :=
  match word with
  | [] => []
  | first :: others => search first others read 0 [] t

end
end PluginAudit.Code
