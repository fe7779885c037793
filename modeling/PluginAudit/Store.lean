import PluginAudit.Finding
import PluginAudit.Path

/-!
# Stores

A store is where the artifacts of a project are read from. It answers three questions: what a file
holds, whether anything is at a path, and which files with given extensions are below a path.
-/
namespace PluginAudit

structure Store where
  read : Path → Except ReadFailure Text
  has : Path → Bool
  walk : Path → List Text → List Path

namespace ReadFailure

/-- Nothing is at the path. -/
def notFound : ReadFailure := ⟨lit "File not found", []⟩

/-- Something is at the path or on the way to it that cannot be read as a text. -/
def failed (details : Text) : ReadFailure := ⟨lit "Failed reading", details⟩

end ReadFailure

def Path.hasExtension (p : Path) (extensions : List Text) : Bool :=
  p.extension?.any (extensions.contains ·)

def Store.read? (store : Store) (p : Path) : Option Text := (store.read p).toOption

end PluginAudit
