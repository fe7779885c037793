import PluginAudit.Text.Basic

/-!
# Lines

A line ends at a line feed or at the end of the text. A carriage return just before a line feed
belongs to the end of the line, and one anywhere else to its content.
-/
namespace PluginAudit.Text

/-- A line from its characters in reverse order, its line feed left out. -/
def endLine : Text → Text
  | '\r' :: before => before.reverse
  | before => before.reverse

/-- The lines of a text, given the reversed beginning of the first of them. -/
def linesAfter (before : Text) : Text → List Text
  | [] => if before.isEmpty then [] else [before.reverse]
  | c :: rest => if c = '\n' then endLine before :: linesAfter [] rest else linesAfter (c :: before) rest

/-- The lines of a text; nothing follows the last line feed. -/
def lines (t : Text) : List Text := linesAfter [] t

end PluginAudit.Text
