import PluginAudit.Finding
import PluginAudit.Json.Compact
import PluginAudit.Json.Document
import PluginAudit.Registry
import PluginAudit.Text.Blank

/-!
# Card collections

A collection of religion cards is a JSON list of objects. Each entry is checked by itself and its id
against those of the entries before it; it becomes a card or has a finding.
-/
namespace PluginAudit

namespace Card

structure Record where
  id : Text
  name : Text
  tagline : Text
  symbol : Text
  color : Text
  details : List Text
deriving DecidableEq

abbrev Entry := List (Text × Json)

def isIdChar (c : Char) : Bool := ('a' ≤ c && c ≤ 'z') || c.isDigit || c == '_' || c == '-'

def isId (t : Text) : Bool := !t.isEmpty && t.all isIdChar

/-- Whether a text is a color: a hash and six hexadecimal digits. -/
def isColor : Text → Bool
  | '#' :: digits => digits.length == 6 && digits.all fun c => (Json.hexValue? c).isSome
  | _ => false

/-- The string of a key, if it is not blank. -/
def nonblank? (key : Text) (entry : Entry) : Option Text :=
  (Json.stringMember? key entry).filter (!Text.blank ·)

def id? (entry : Entry) : Option Text := (Json.stringMember? (lit "id") entry).filter isId

/-- What is wrong with the id of an entry, given the owners of the ids before it. -/
def idProblems (owners : Registry) (entry : Entry) : List Problem :=
  match nonblank? (lit "id") entry with
  | none => [.emptyId]
  | some id =>
    if isId id then (owners.owner? id).toList.map (.duplicateId id) else [.invalidId id]

def textProblems (key : Text) (entry : Entry) : List Problem :=
  if (nonblank? key entry).isSome then [] else [.emptyField key]

/-- How the color of an entry is shown: a string as it is, another value as compact JSON. -/
def shownColor : Option Json → Text
  | none => lit "null"
  | some (.string t) => t
  | some v => v.compact

def color? (entry : Entry) : Option Text := (Json.stringMember? (lit "color") entry).filter isColor

def colorProblems (entry : Entry) : List Problem :=
  if (color? entry).isSome then []
  else [.invalidColor (shownColor (Json.member? (lit "color") entry))]

def detail? (v : Json) : Option Text := v.string?.filter (!Text.blank ·)

def detailProblems (entry : Entry) : List Problem :=
  match (Json.member? (lit "details") entry).bind Json.array? with
  | none | some [] => [.emptyDetails]
  | some details => if details.all fun v => (detail? v).isSome then [] else [.blankDetail]

def problems (owners : Registry) (entry : Entry) : List Problem :=
  idProblems owners entry ++
  textProblems (lit "name") entry ++
  textProblems (lit "tagline") entry ++
  textProblems (lit "symbol") entry ++
  colorProblems entry ++
  detailProblems entry

/-- The card that an entry spells. As with a reader that is derived from the record, all six members have
    to be there and to be of their kind, no value is converted, and members that are no fields are ignored. -/
def record? (entry : Entry) : Option Record := do
  return {
    id := ← Json.stringMember? (lit "id") entry
    name := ← Json.stringMember? (lit "name") entry
    tagline := ← Json.stringMember? (lit "tagline") entry
    symbol := ← Json.stringMember? (lit "symbol") entry
    color := ← Json.stringMember? (lit "color") entry
    details := ← (← (Json.member? (lit "details") entry).bind Json.array?).mapM Json.string? }

def elementProblems (owners : Registry) (element : Json) : List Problem :=
  match element.object? with
  | none => [.notAnObject]
  | some entry => problems owners entry

/-- Checks elements in turn, the first of which has a given number. -/
def check (index : Nat) (owners : Registry) : List Json → List (Nat × Json × List Problem)
  | [] => []
  | element :: rest =>
    (index, element, elementProblems owners element) ::
      check (index + 1) (owners.claimAll index (element.object?.bind id?).toList) rest

end Card

structure Cards where
  records : List Card.Record
  findings : List Finding
deriving DecidableEq

namespace Cards
open Card

def rejected (artifact : Text) (problem : Card.Problem) : Cards :=
  ⟨[], [.error (.artifact artifact) (.card problem)]⟩

def ofJson (artifact : Text) (document : Json) : Cards :=
  match document.array? with
  | none | some [] => rejected artifact .notAList
  | some elements =>
    let checked := check 1 .empty elements
    { records := checked.filterMap fun (_, element, problems) =>
        if problems.isEmpty then element.object?.bind record? else none
      findings := checked.flatMap fun (index, _, problems) =>
        problems.map fun problem => .error (.record artifact index) (.card problem) }

def ofText (artifact t : Text) : Cards :=
  match Json.ofText t with
  | .error fault => rejected artifact (.invalidDocument (fault.message t))
  | .ok document => ofJson artifact document

end Cards
end PluginAudit
