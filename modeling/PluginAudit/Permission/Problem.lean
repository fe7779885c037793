import PluginAudit.Text.Basic

namespace PluginAudit.Permission

inductive Problem
  | missing (names : List Text)
  | noSources (root : Text)
  | noSection
deriving DecidableEq

def Problem.message : Problem → Text
  | missing names => lit "missing permissions: " ++ Text.enumerate names
  | noSources root => lit "no plugin sources found under " ++ root
  | noSection => lit "no permissions section"

end PluginAudit.Permission
