import PluginAudit.Number.Binary64
import PluginAudit.Text.Basic

/-!
# JSON values

The members of an object keep their order and have different keys. A number is an integer when it is
written without fraction and exponent and fits 64 bits.
-/
namespace PluginAudit

inductive Json
  | null
  | bool (b : Bool)
  | integer (n : Int)
  | number (x : Binary64)
  | string (t : Text)
  | array (elements : List Json)
  | object (members : List (Text × Json))

namespace Json

/-- The members of an object after one more was read: a new key goes to the end, and a key that is
    there keeps its place and takes the new value. -/
def setMember (key : Text) (value : Json) : List (Text × Json) → List (Text × Json)
  | [] => [(key, value)]
  | (k, v) :: members =>
    if k = key then (key, value) :: members else (k, v) :: setMember key value members

def member? (key : Text) (members : List (Text × Json)) : Option Json := members.lookup key

def string? : Json → Option Text
  | string t => some t
  | _ => none

def array? : Json → Option (List Json)
  | array elements => some elements
  | _ => none

def object? : Json → Option (List (Text × Json))
  | object members => some members
  | _ => none

def integer? : Json → Option Int
  | integer n => some n
  | _ => none

def stringMember? (key : Text) (members : List (Text × Json)) : Option Text :=
  (member? key members).bind string?

theorem string?_eq_some_iff {v : Json} {t : Text} : v.string? = some t ↔ v = .string t := by
  cases v <;> simp [string?]

theorem array?_eq_some_iff {v : Json} {elements : List Json} : v.array? = some elements ↔ v = .array elements := by
  cases v <;> simp [array?]

theorem object?_eq_some_iff {v : Json} {members : List (Text × Json)} :
    v.object? = some members ↔ v = .object members := by
  cases v <;> simp [object?]

theorem integer?_eq_some_iff {v : Json} {n : Int} : v.integer? = some n ↔ v = .integer n := by
  cases v <;> simp [integer?]

theorem stringMember?_eq_some_iff {key t : Text} {members : List (Text × Json)} :
    stringMember? key members = some t ↔ member? key members = some (.string t) := by
  simp [stringMember?, Option.bind_eq_some_iff, string?_eq_some_iff]

end Json
end PluginAudit
