import PluginAudit.Store

/-!
# Directory trees

Paths are resolved in a tree of files, directories and links, step by step as an operating system
does it. Nothing outside the working directory is known but that it exists.
-/
namespace PluginAudit

/-- What is at a place in a directory tree. A file whose bytes are not UTF-8 has no text. -/
inductive Entry
  | directory
  | file (text : Option Text)
  | link (target : Text)
deriving DecidableEq

/-- The entries below the working directory, each at the list of names that leads to it. -/
structure Tree where
  entries : List (List Text × Entry)
deriving DecidableEq

namespace Tree

/-- A directory: one in the tree by the names that lead to it, or one outside. -/
inductive Place
  | inside (names : List Text)
  | outside
deriving DecidableEq

def Place.start : Place := .inside []

def Place.parent : Place → Place
  | inside [] => outside
  | inside names => inside names.dropLast
  | outside => outside

/-- Why a path does not lead anywhere. -/
inductive Obstacle
  | missing
  | notADirectory
  | tooManyLinks
  | invalidPath
deriving DecidableEq

inductive Target
  | directory (place : Place)
  | file (text : Option Text)
deriving DecidableEq

def empty : Tree := ⟨[]⟩

/-- The entry that a list of names leads to. -/
def entry? (tree : Tree) (names : List Text) : Option Entry :=
  if names = [] then some .directory else tree.entries.lookup names

def linkLimit : Nat := 40

/-- The place where a path starts: outside the tree if it begins with a slash. -/
def origin (place : Place) (path : Text) : Place := if path.head? = some '/' then .outside else place

/-- Follows steps from a directory through at most so many links. No step, or a point, stays in a
    directory, so a path with a slash at its end does not lead to a file. -/
def follow (tree : Tree) (links : Nat) (place : Place) (steps : List Text) : Except Obstacle Target :=
  match steps with
  | [] => .ok (.directory place)
  | step :: rest =>
    if step = [] ∨ step = ['.'] then follow tree links place rest
    else if step = ['.', '.'] then follow tree links place.parent rest
    else
      match place with
      | .outside => .error .missing
      | .inside names =>
        match tree.entry? (names ++ [step]) with
        | none => .error .missing
        | some .directory => follow tree links (.inside (names ++ [step])) rest
        | some (.file text) => if rest = [] then .ok (.file text) else .error .notADirectory
        | some (.link target) =>
          match links with
          | 0 => .error .tooManyLinks
          | links + 1 =>
            if target = [] then .error .missing
            else follow tree links (origin place target) (Text.splitOn '/' target ++ rest)
termination_by (links, steps.length)

/-- What a path leads to. The empty path leads nowhere. -/
def resolve (tree : Tree) (p : Path) : Except Obstacle Target :=
  if p.spelling = [] then .error .missing
  else if '\x00' ∈ p.spelling then .error .invalidPath
  else tree.follow linkLimit (origin .start p.spelling) (Text.splitOn '/' p.spelling)

def Obstacle.failure : Obstacle → ReadFailure
  | missing => .notFound
  | notADirectory => .failed (lit "not a directory")
  | tooManyLinks => .failed (lit "filesystem loop or indirection limit (e.g. symlink loop)")
  | invalidPath => .failed (lit "invalid input parameter")

def read (tree : Tree) (p : Path) : Except ReadFailure Text :=
  match tree.resolve p with
  | .error obstacle => .error obstacle.failure
  | .ok (.directory _) => .error (.failed (lit "is a directory"))
  | .ok (.file none) => .error (.failed (lit "invalid data"))
  | .ok (.file (some text)) => .ok text

/-- The names that lead from a directory to an entry below it. -/
def below? (names : List Text) : List Text → Option (List Text)
  | path => if names.isPrefixOf path ∧ names ≠ path then some (path.drop names.length) else none

/-- The files below a directory, spelled from its path on. Links are not followed. -/
def filesBelow (tree : Tree) (root : Path) (names : List Text) : List Path :=
  tree.entries.filterMap fun (path, entry) =>
    match entry with
    | .file _ => (below? names path).map fun steps => steps.foldl Path.join root
    | _ => none

def walk (tree : Tree) (root : Path) (extensions : List Text) : List Path :=
  match tree.resolve root with
  | .ok (.directory (.inside names)) =>
    ((tree.filesBelow root names).filter (·.hasExtension extensions)).mergeSort
      fun p q => !q.comesBefore p
  | _ => []

def toStore (tree : Tree) : Store where
  read := tree.read
  has p := (tree.resolve p).isOk
  walk := tree.walk

/-- Puts an entry at a list of names, in place of what is there. -/
def put (tree : Tree) (names : List Text) (entry : Entry) : Tree :=
  match tree.entries.lookup names with
  | some _ => ⟨tree.entries.map fun (path, old) => if path = names then (path, entry) else (path, old)⟩
  | none => ⟨tree.entries ++ [(names, entry)]⟩

/-- Goes down one step from a directory, which is made if nothing is there. -/
def enter? (tree : Tree) (place : Place) (step : Text) : Option (Tree × Place) :=
  match tree.follow linkLimit place [step], place with
  | .ok (.directory place), _ => some (tree, place)
  | .error .missing, .inside names =>
    if (tree.entry? (names ++ [step])).isSome then none
    else some (tree.put (names ++ [step]) .directory, .inside (names ++ [step]))
  | _, _ => none

/-- Goes down steps from a directory, all of which are made if nothing is there. -/
def enterAll? (tree : Tree) (place : Place) : List Text → Option (Tree × Place)
  | [] => some (tree, place)
  | step :: rest => do
    let (tree, place) ← tree.enter? place step
    tree.enterAll? place rest

/-- The tree with an entry at a path and the directories on the way to it. A path that leads through
    a file or out of the tree changes nothing, and a directory that exists stays as it is. -/
def create (tree : Tree) (path : Text) (entry : Entry) : Tree :=
  let steps := (Text.splitOn '/' path).filter (!·.isEmpty)
  let created : Option Tree := do
    match entry with
    | .directory => (·.1) <$> tree.enterAll? (origin .start path) steps
    | entry =>
      let (tree, place) ← tree.enterAll? (origin .start path) steps.dropLast
      let .inside names := place | none
      some (tree.put (names ++ [← steps.getLast?]) entry)
  created.getD tree

end Tree
end PluginAudit
