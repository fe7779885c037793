import PluginAudit.Text.Basic

/-!
# Paths

A path is written as a text and means a list of components. Repeated slashes, a slash at the end and
single points do not count, except a point that the path begins with. Paths are compared by their
components; printing keeps the spelling.
-/
namespace PluginAudit

structure Path where
  spelling : Text
deriving DecidableEq

namespace Path

/-- One step of a path. -/
inductive Component
  | root
  | here
  | parent
  | name (t : Text)
deriving DecidableEq

def Component.rank : Component → Nat
  | root => 0
  | here => 1
  | parent => 2
  | name _ => 3

/-- Components are ordered by kind, and names by code points. -/
def Component.before (a b : Component) : Bool :=
  match a, b with
  | name s, name t => s < t
  | a, b => a.rank < b.rank

/-- The component that a part between slashes means, inside a path. -/
def component? (part : Text) : Option Component :=
  if part = [] ∨ part = ['.'] then none
  else if part = ['.', '.'] then some .parent
  else some (.name part)

def isRooted (p : Path) : Bool := p.spelling.head? == some '/'

def components (p : Path) : List Component :=
  let parts := Text.splitOn '/' p.spelling
  let start :=
    if p.isRooted then [.root]
    else if parts.head? = some ['.'] then [.here]
    else []
  start ++ parts.filterMap component?

def same (p q : Path) : Bool := p.components == q.components

/-- Whether a path is at another path or below it. -/
def startsWith (p root : Path) : Bool := root.components.isPrefixOf p.components

def below (p root : Path) : Bool := p.startsWith root && !p.same root

/-- Whether one list of components comes before another; a list comes after its beginnings. -/
def componentsBefore : List Component → List Component → Bool
  | _, [] => false
  | [], _ :: _ => true
  | a :: as, b :: bs => a.before b || (a == b && componentsBefore as bs)

def comesBefore (p q : Path) : Bool := componentsBefore p.components q.components

/-- The last component of a path, if it is a name. -/
def fileName? (p : Path) : Option Text :=
  match p.components.getLast? with
  | some (.name t) => some t
  | _ => none

/-- What follows the last point of the file name. A point that the name begins with does not
    count. -/
def extension? (p : Path) : Option Text :=
  p.fileName?.bind fun name =>
    match (Text.splitOn '.' name).reverse with
    | [] | [_] | [_, []] => none
    | last :: _ => some last

/-- How a path is named in findings: by its file name, or in full if it has none. -/
def label (p : Path) : Text := p.fileName?.getD p.spelling

def join (p : Path) (name : Text) : Path :=
  if p.spelling.getLast? = some '/' then ⟨p.spelling ++ name⟩ else ⟨p.spelling ++ '/' :: name⟩

end Path
end PluginAudit
