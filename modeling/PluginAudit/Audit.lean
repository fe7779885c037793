import PluginAudit.Card.Collection
import PluginAudit.Command.Catalog
import PluginAudit.Contract.Sides
import PluginAudit.Layout
import PluginAudit.Permission.Manifest
import PluginAudit.Permission.Requirement
import PluginAudit.Report

/-!
# Audits

An audit reads the artifacts of a project and reports every inconsistency in and between them. An
artifact that cannot be read is a finding, and only the checks that need it are left out.
-/
namespace PluginAudit

/-- What an audit knows: what was read at each path, and what the sources require. -/
structure Artifacts where
  catalog : Except ReadFailure Text
  cards : Except ReadFailure Text
  client : Except ReadFailure Text
  server : Except ReadFailure Text
  manifest : Except ReadFailure Text
  hasSources : Bool
  required : NameSet

namespace Artifacts

def ofStore (store : Store) (layout : Layout) : Artifacts where
  catalog := store.read layout.catalog
  cards := store.read layout.cards
  client := store.read layout.client
  server := store.read (layout.resolveServer store)
  manifest := store.read layout.manifest
  hasSources := store.has layout.sources
  required := Permission.inSources store layout.sources

end Artifacts

namespace Audit

def unreadable (p : Path) : Except ReadFailure Text → List Finding
  | .error failure => [.error (.artifact p.label) (.unreadable failure)]
  | .ok _ => []

/-- The catalog; of one that cannot be read nothing is known. -/
def catalogOf : Except ReadFailure Text → Catalog
  | .error _ => .empty
  | .ok t => .ofText .standard t

def cardFindings (p : Path) : Except ReadFailure Text → List Finding
  | .error _ => []
  | .ok t => (Cards.ofText p.label t).findings

/-- The findings of the contract, if both sides can be read. -/
def contractFindings : Except ReadFailure Text → Except ReadFailure Text → List Finding
  | .ok client, .ok server => Contract.check client server
  | _, _ => []

/-- The manifest; one that cannot be read declares nothing, and lacks no section. -/
def manifestOf : Except ReadFailure Text → Manifest
  | .error _ => ⟨∅, true⟩
  | .ok t => .ofText t

/-- A warning against the manifest, if something is not as it should be. -/
def warnUnless (holds : Bool) (p : Path) (problem : Permission.Problem) : List Finding :=
  if holds then [] else [.warning (.artifact p.label) (.permission problem)]

/-- The findings on artifacts that were read at the paths of a layout. -/
def findings (layout : Layout) (server : Path) (a : Artifacts) : List Finding :=
  let catalog := catalogOf a.catalog
  let manifest := manifestOf a.manifest
  let permissions : Permission.Universe := ⟨manifest.permissions, catalog.permissions, a.required⟩
  unreadable layout.catalog a.catalog ++ catalog.findings ++
  unreadable layout.cards a.cards ++ cardFindings layout.cards a.cards ++
  unreadable layout.client a.client ++ unreadable server a.server ++
  contractFindings a.client a.server ++
  unreadable layout.manifest a.manifest ++
  warnUnless a.hasSources layout.manifest (.noSources layout.sources.spelling) ++
  warnUnless manifest.hasSection layout.manifest .noSection ++
  permissions.findings layout.manifest.label

end Audit

def audit (store : Store) (layout : Layout) : Report :=
  ⟨Audit.findings layout (layout.resolveServer store) (.ofStore store layout)⟩

end PluginAudit
