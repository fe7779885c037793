import PluginAudit.Store

namespace PluginAudit

/-- The paths of the artifacts, relative to the root of a project. The fallbacks are where else the server can be,
    in the order of preference. -/
structure Layout where
  catalog : Path
  cards : Path
  client : Path
  server : Path
  manifest : Path
  sources : Path
  fallbacks : List Path
deriving DecidableEq

namespace Layout

def standard : Layout where
  catalog := ⟨lit "axiom-mod-integration/src/main/java/com/axiom/ui/CommandCatalog.java"⟩
  cards := ⟨lit "axiom-mod-integration/src/main/resources/assets/axiomui/religions.json"⟩
  client := ⟨lit "axiom-mod-integration/src/main/java/com/axiom/ui/AxiomUiClientEvents.java"⟩
  server := ⟨lit "axiom-plugin/src/main/java/com/axiom/infra/network/ModCommunicationHandler.java"⟩
  manifest := ⟨lit "axiom-plugin/src/main/resources/plugin.yml"⟩
  sources := ⟨lit "axiom-plugin/src/main/java"⟩
  fallbacks :=
    [⟨lit "axiom-plugin/src/main/java/com/axiom/infra/network/ModCommunicationHandler.java"⟩,
     ⟨lit "axiom-plugin/src/main/java/com/axiom/network/ModCommunicationHandler.java"⟩]

/-- The server file of a project: the first of the server path and the fallbacks at which something
    is, and the server path if there is nothing at any. -/
def resolveServer (layout : Layout) (store : Store) : Path :=
  ((layout.server :: layout.fallbacks).find? store.has).getD layout.server

end Layout
end PluginAudit
