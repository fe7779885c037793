import PluginAudit.Code.Literal
import PluginAudit.Code.Occurrence

/-!
# Labels

A label is a literal that a keyword introduces, as in `case "name":`. The keyword may not continue
a longer identifier, and white space separates it from the literal.
-/
namespace PluginAudit.Code

def readLabel (before after : Text) : Reading Literal :=
  if endsInIdentifier before then .rejected
  else
    let gap := after.takeWhile isBlank
    match gap, leading? (after.dropWhile isBlank) with
    | _ :: _, some l =>
      if l.terminated then .found (l.shift (Text.byteSize gap)) (gap.length + l.spelling.length) else .rejected
    | _, _ => .rejected

def labels (keyword t : Text) : List Literal :=
  (occurrences keyword readLabel t).map fun (keywordEnd, l) => l.shift keywordEnd

end PluginAudit.Code
