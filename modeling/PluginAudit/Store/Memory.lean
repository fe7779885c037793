import PluginAudit.Store

/-!
# Files in memory

A path has one text, whatever its spelling, and the spelling that was inserted first stays. Every
beginning of a path counts as a directory.
-/
namespace PluginAudit

/-- Files and their texts, in the order of paths. -/
structure Memory where
  files : List (Path × Text)
deriving DecidableEq

namespace Memory

def empty : Memory := ⟨[]⟩

/-- Puts a text at a path among files that are in order. -/
def insertInto (p : Path) (text : Text) : List (Path × Text) → List (Path × Text)
  | [] => [(p, text)]
  | (q, old) :: files =>
    if p.same q then (q, text) :: files
    else if p.comesBefore q then (p, text) :: (q, old) :: files
    else (q, old) :: insertInto p text files

def insert (m : Memory) (p : Path) (text : Text) : Memory := ⟨insertInto p text m.files⟩

def ofList (files : List (Path × Text)) : Memory := files.foldl (fun m (p, text) => m.insert p text) empty

def text? (m : Memory) (p : Path) : Option Text :=
  (m.files.find? fun (q, _) => p.same q).map (·.2)

def toStore (m : Memory) : Store where
  read p := (m.text? p).elim (.error .notFound) .ok
  has p := m.files.any fun (q, _) => q.startsWith p
  walk root extensions :=
    (m.files.map (·.1)).filter fun q => q.below root && q.hasExtension extensions

end Memory
end PluginAudit
