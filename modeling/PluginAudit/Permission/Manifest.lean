import PluginAudit.NameSet
import PluginAudit.Text.Blank
import PluginAudit.Text.Lines

/-!
# Plugin manifests

Of a manifest only the permissions are read: the lines after the header of their section that are
indented by exactly two spaces and hold a name and a colon, up to the first line that is not
indented.
-/
namespace PluginAudit

/-- The permissions that a manifest declares, and whether it has a section for them. -/
structure Manifest where
  permissions : NameSet
  hasSection : Bool
deriving DecidableEq

namespace Manifest

def isNameChar (c : Char) : Bool :=
  ('A' ≤ c && c ≤ 'Z') || ('a' ≤ c && c ≤ 'z') || c.isDigit || c == '_' || c == '.' || c == '-'

/-- Whether a text is a colon, white space around it aside. -/
def isColon (t : Text) : Bool :=
  match t.trimStart with
  | ':' :: rest => Text.blank rest
  | _ => false

def isHeader (line : Text) : Bool := (Text.after? (lit "permissions") line.trim).any isColon

/-- What follows the two spaces that a line begins with. -/
def indented? (line : Text) : Option Text := Text.after? (lit "  ") line

/-- The permission that a line declares, given what follows its two spaces. -/
def entry? (line : Text) : Option Text :=
  let name := line.takeWhile isNameChar
  if !name.isEmpty && isColon (line.dropWhile isNameChar) then some name else none

/-- The lines of the section without their two spaces, given the lines after its header. -/
def sectionLines : List Text → List Text
  | [] => []
  | line :: rest =>
    match indented? line with
    | some line => line :: sectionLines rest
    | none => []

def ofLines (lines : List Text) : Manifest :=
  match lines.dropWhile (!isHeader ·) with
  | [] => ⟨∅, false⟩
  | _ :: rest => ⟨.ofList ((sectionLines rest).filterMap entry?), true⟩

def ofText (t : Text) : Manifest := ofLines t.lines

end Manifest
end PluginAudit
