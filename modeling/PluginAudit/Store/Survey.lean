import PluginAudit.Store

/-!
# Surveys

A survey is what was found at the paths that someone looked at: texts that were read, paths at
which something is, and files below a directory. Of any other path it knows nothing.
-/
namespace PluginAudit

structure Survey where
  reads : List (Path × Except ReadFailure Text)
  present : List Path
  files : List Path

def Survey.toStore (s : Survey) : Store where
  read p := (s.reads.lookup p).getD (.error .notFound)
  has p := s.present.contains p
  walk root extensions :=
    (s.files.filter fun p => p.below root && p.hasExtension extensions).mergeSort
      fun p q => !q.comesBefore p

end PluginAudit
