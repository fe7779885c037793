import PluginAudit.Proofs.Audit.Parts
import PluginAudit.Proofs.Store.Agreement
import PluginAudit.Proofs.Store.Creation

/-!
# Interchanging memory and directory

Whatever an audit asks of files in memory and of a directory that holds them, the two answer alike, and the reports
are equal (`audit_agree`). Only a null character makes a difference: a directory rejects a path with one where a
memory does not find it (`audit_ne_of_null`).
-/
namespace PluginAudit

/-- The paths at which an audit can read an artifact; the server can be at several. -/
def Layout.artifacts (layout : Layout) : List Path :=
  [layout.catalog, layout.cards, layout.client, layout.manifest] ++ layout.server :: layout.fallbacks

theorem Layout.resolveServer_mem (layout : Layout) (store : Store) : layout.resolveServer store ∈ layout.artifacts := by
  refine List.mem_append_right _ ?_
  rw [resolveServer]
  cases found : (layout.server :: layout.fallbacks).find? store.has with
  | none => exact List.mem_cons_self
  | some p => exact List.mem_of_find?_eq_some found

theorem Artifact.path_mem (store : Store) (layout : Layout) (a : Artifact) : a.path store layout ∈ layout.artifacts := by
  cases a with
  | server => exact layout.resolveServer_mem store
  | catalog | cards | client | manifest => exact List.mem_append_left _ (by simp [path])

/-- Two stores that answer an audit alike, unless they are to read a path with a null character. -/
structure Store.Interchangeable (layout : Layout) (s s' : Store) : Prop where
  report : (∀ a : Artifact, '\x00' ∉ (a.path s layout).spelling) → audit s layout = audit s' layout
  read : ∀ p ∈ layout.artifacts, '\x00' ∉ p.spelling → s.read p = s'.read p
  has : ∀ p ∈ layout.sources :: layout.artifacts, s.has p = s'.has p
  walk : ∀ extensions, s.walk layout.sources extensions = s'.walk layout.sources extensions
  required : Permission.inSources s layout.sources = Permission.inSources s' layout.sources
  server : layout.resolveServer s = layout.resolveServer s'

theorem Audit.audit_congr {layout : Layout} {s s' : Store} (server : layout.resolveServer s = layout.resolveServer s')
    (read : ∀ a : Artifact, s.read (a.path s layout) = s'.read (a.path s layout))
    (hasSources : s.has layout.sources = s'.has layout.sources)
    (required : Permission.inSources s layout.sources = Permission.inSources s' layout.sources) :
    audit s layout = audit s' layout := by
  have known : Artifacts.ofStore s layout = Artifacts.ofStore s' layout := by
    simp only [Artifacts.ofStore, Artifacts.mk.injEq, ← server]
    exact ⟨read .catalog, read .cards, read .client, read .server, read .manifest, hasSources, required⟩
  rw [audit, audit, server, known]

namespace NamedFiles

/-- A layout for files in a directory: its paths are written as names, and an artifact is neither at a
    directory nor below a file. -/
structure Suits (files : NamedFiles) (layout : Layout) : Prop where
  sources : ∃ names, Path.AreNames names ∧ Path.ofNames names = layout.sources
  artifacts : ∀ p ∈ layout.artifacts, ∃ names, Path.AreNames names ∧ files.Fits names ∧ Path.ofNames names = p

theorem suits_of_names {files : NamedFiles} {layout : Layout} {artifacts : List (List Text)} (root : List Text)
    (sources : Path.AreNames root) (each : ∀ names ∈ artifacts, Path.AreNames names ∧ files.Fits names)
    (root_eq : Path.ofNames root = layout.sources) (artifacts_eq : artifacts.map Path.ofNames = layout.artifacts) :
    files.Suits layout := by
  refine ⟨⟨root, sources, root_eq⟩, fun p mem => ?_⟩
  rw [← artifacts_eq] at mem
  obtain ⟨names, listed, rfl⟩ := List.mem_map.mp mem
  exact ⟨names, (each names listed).1, (each names listed).2, rfl⟩

/-- Files in memory and a directory that holds them answer an audit alike, unless they are to read a path
    with a null character. -/
theorem audit_agree {files : NamedFiles} {tree : Tree} {layout : Layout} (placeable : files.Placeable)
    (holds : tree.Holds files) (suits : files.Suits layout) :
    files.memory.toStore.Interchangeable layout tree.toStore := by
  obtain ⟨⟨root, written, spelled⟩, artifacts⟩ := suits
  have read : ∀ p ∈ layout.artifacts, '\x00' ∉ p.spelling → files.memory.toStore.read p = tree.toStore.read p := by
    intro p mem noNull
    obtain ⟨names, h, fits, rfl⟩ := artifacts p mem
    exact read_eq holds placeable h fits noNull
  have has : ∀ p ∈ layout.sources :: layout.artifacts, files.memory.toStore.has p = tree.toStore.has p := by
    intro p mem
    rcases List.mem_cons.mp mem with rfl | mem
    · rw [← spelled]
      exact has_eq holds placeable written
    · obtain ⟨names, h, -, rfl⟩ := artifacts p mem
      exact has_eq holds placeable h
  have walk : ∀ extensions,
      files.memory.toStore.walk layout.sources extensions = tree.toStore.walk layout.sources extensions := by
    intro extensions
    rw [← spelled]
    exact walk_eq holds placeable written extensions
  have required : Permission.inSources files.memory.toStore layout.sources = Permission.inSources tree.toStore layout.sources := by
    refine Audit.inSources_congr (walk _) fun p listed => ?_
    obtain ⟨file, mem, rfl⟩ := placeable.exists_of_mem_walk listed
    refine read_eq holds placeable (placeable.names file mem) (placeable.fits mem) fun null => ?_
    obtain ⟨name, inPath, null⟩ := (Path.mem_spelling_ofNames (by decide)).mp null
    exact holds.valid file mem name inPath null
  have server : layout.resolveServer files.memory.toStore = layout.resolveServer tree.toStore :=
    Audit.resolveServer_congr fun p mem => has p (List.mem_cons_of_mem _ (List.mem_append_right _ mem))
  refine ⟨fun noNull => ?_, read, has, walk, required, server⟩
  exact Audit.audit_congr server (fun a => read _ (a.path_mem _ _) (noNull a)) (has _ List.mem_cons_self) required

/-- A project whose sources are in another order by their spellings than by their names. -/
def nested : NamedFiles :=
  [([lit "src", lit "a b.java"], lit "p.hasPermission(\"q\")"), ([lit "src", lit "a", lit "x.java"], lit "p.hasPermission(\"r\")"),
   ([lit "web", lit "cards"], lit "[]"), ([lit "plugin.yml"], lit "name: x"), ([lit "old", lit "server"], lit "case \"get_b\":")]

/-- A layout for this project, in which the server is at the fallback and two other artifacts are missing. -/
def nestedLayout : Layout :=
  ⟨⟨lit "web/catalog"⟩, ⟨lit "web/cards"⟩, ⟨lit "client"⟩, ⟨lit "server"⟩, ⟨lit "plugin.yml"⟩, ⟨lit "src"⟩, [⟨lit "old/server"⟩]⟩

theorem audit_agree_nested : nested.Placeable ∧ (Tree.made nested).Holds nested ∧ nested.Suits nestedLayout ∧
    nested.memory.toStore.Interchangeable nestedLayout (Tree.made nested).toStore ∧
    audit nested.memory.toStore nestedLayout = audit (Tree.made nested).toStore nestedLayout := by
  have placeable : nested.Placeable := by decide +kernel
  have holds : (Tree.made nested).Holds nested := Tree.holds_made placeable (by decide +kernel)
  have each : ∀ names ∈ [[lit "web", lit "catalog"], [lit "web", lit "cards"], [lit "client"], [lit "plugin.yml"],
      [lit "server"], [lit "old", lit "server"]], Path.AreNames names ∧ nested.Fits names := by decide +kernel
  have suits : nested.Suits nestedLayout := suits_of_names [lit "src"] (by decide +kernel) each rfl rfl
  have agree := audit_agree placeable holds suits
  have noNull : ∀ p ∈ nestedLayout.artifacts, '\x00' ∉ p.spelling := by decide +kernel
  exact ⟨placeable, holds, suits, agree, agree.report fun a => noNull _ (a.path_mem _ _)⟩

def nullLayout : Layout :=
  ⟨⟨lit "a\x00b"⟩, ⟨lit "cards"⟩, ⟨lit "client"⟩, ⟨lit "server"⟩, ⟨lit "plugin.yml"⟩, ⟨lit "src"⟩, []⟩

/-- An empty directory rejects a path with a null character, where a memory without files finds nothing. -/
theorem audit_ne_of_null : Placeable [] ∧ Tree.empty.Holds [] ∧ Suits [] nullLayout ∧
    (memory []).toStore.read nullLayout.catalog = .error .notFound ∧
    Tree.empty.toStore.read nullLayout.catalog = .error (.failed (lit "invalid input parameter")) ∧
    audit (memory []).toStore nullLayout ≠ audit Tree.empty.toStore nullLayout := by
  have each : ∀ names ∈ [[lit "a\x00b"], [lit "cards"], [lit "client"], [lit "plugin.yml"], [lit "server"]],
      Path.AreNames names ∧ Fits [] names := by decide +kernel
  have inMemory : (memory []).toStore.read nullLayout.catalog = .error .notFound := rfl
  have inTree : Tree.empty.toStore.read nullLayout.catalog = .error (.failed (lit "invalid input parameter")) := rfl
  have first : ∀ {s : Store} {failure}, s.read nullLayout.catalog = .error failure → (audit s nullLayout).findings.head? =
      some (.error (.artifact nullLayout.catalog.label) (.unreadable failure)) := by
    intro s failure failed
    simp [audit, Audit.findings, Artifacts.ofStore, failed, Audit.unreadable]
  have placeable : Placeable [] := by decide
  have holds : Tree.empty.Holds [] := Tree.holds_made placeable (by decide)
  have suits : Suits [] nullLayout := suits_of_names [lit "src"] (by decide +kernel) each rfl rfl
  refine ⟨placeable, holds, suits, inMemory, inTree, fun same => ?_⟩
  have heads := (first inMemory).symm.trans ((congrArg (·.findings.head?) same).trans (first inTree))
  exact absurd heads (by decide +kernel)

end NamedFiles
end PluginAudit
