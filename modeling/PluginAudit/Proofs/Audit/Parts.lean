import PluginAudit.Audit
import PluginAudit.Proofs.Command.Verdict
import Mathlib.Data.List.Basic

/-!
# Parts of an audit

An audit reads five artifacts and makes six checks. Its findings are those of these parts, in a fixed order
(`findings_audit`), and each part raises findings of its own kinds only (`Part.raises_of_mem`).
-/
namespace PluginAudit

/-- The artifacts that an audit reads. -/
inductive Artifact
  | catalog
  | cards
  | client
  | server
  | manifest
deriving DecidableEq

def Artifact.path (store : Store) (layout : Layout) : Artifact → Path
  | catalog => layout.catalog
  | cards => layout.cards
  | client => layout.client
  | server => layout.resolveServer store
  | manifest => layout.manifest

namespace Audit

/-- What raises the findings of an audit: the reading of an artifact, or a check. -/
inductive Part
  | reading (artifact : Artifact)
  | catalog
  | cards
  | contract
  | sourceTree
  | manifestSection
  | permissions
deriving DecidableEq

/-- The parts of an audit, in the order in which they raise their findings. -/
def parts : List Part :=
  [.reading .catalog, .catalog, .reading .cards, .cards, .reading .client, .reading .server, .contract,
   .reading .manifest, .sourceTree, .manifestSection, .permissions]

section
variable (store : Store) (layout : Layout)

/-- The permissions that an audit compares: nothing is required by a catalog or declared by a manifest
    that cannot be read. -/
def compared : Permission.Universe where
  declared := (manifestOf (store.read layout.manifest)).permissions
  catalog := (catalogOf (store.read layout.catalog)).permissions
  code := Permission.inSources store layout.sources

def Part.findings : Part → List Finding
  | reading a => unreadable (a.path store layout) (store.read (a.path store layout))
  | catalog => (catalogOf (store.read layout.catalog)).findings
  | cards => cardFindings layout.cards (store.read layout.cards)
  | contract => contractFindings (store.read layout.client) (store.read (layout.resolveServer store))
  | sourceTree => warnUnless (store.has layout.sources) layout.manifest (.noSources layout.sources.spelling)
  | manifestSection => warnUnless (manifestOf (store.read layout.manifest)).hasSection layout.manifest .noSection
  | permissions => (compared store layout).findings layout.manifest.label

/-- The findings of an audit, each with the part that raises it. -/
def raised : List (Part × Finding) := parts.flatMap fun p => (p.findings store layout).map (p, ·)

theorem findings_audit : (audit store layout).findings = parts.flatMap (·.findings store layout) := by
  simp only [audit, Audit.findings, parts, List.flatMap_cons, List.flatMap_nil, List.append_nil, List.append_assoc]
  rfl

theorem map_snd_raised : (raised store layout).map Prod.snd = (audit store layout).findings := by
  rw [findings_audit, raised, List.map_flatMap]
  refine List.flatMap_congr fun p _ => ?_
  rw [List.map_map]
  exact List.map_id _

variable {store layout}

theorem mem_raised {p : Part} {f : Finding} : (p, f) ∈ raised store layout ↔ f ∈ p.findings store layout := by
  have every : p ∈ parts := by
    cases p with
    | reading a => cases a <;> decide
    | _ => decide
  simp only [raised, List.mem_flatMap, List.mem_map, Prod.mk.injEq]
  constructor
  · rintro ⟨q, -, g, mem, rfl, rfl⟩
    exact mem
  · exact fun mem => ⟨p, every, f, mem, rfl, rfl⟩

end

/-- The kinds of findings that a part can raise. -/
inductive Part.Raises : Part → Finding → Prop
  | unreadable (a : Artifact) (name : Text) (failure : ReadFailure) :
      Raises (.reading a) (.error (.artifact name) (.unreadable failure))
  | catalog (locator : Locator) (problem : Command.Problem) : Raises .catalog (.error locator (.catalog problem))
  | escape (locator : Locator) (field : Text) (c : Char) :
      Raises .catalog (.warning locator (.catalog (.unrecognizedEscape field c)))
  | card (locator : Locator) (problem : Card.Problem) : Raises .cards (.error locator (.card problem))
  | contract (locator : Locator) (problem : Contract.Problem) : Raises .contract (.error locator (.contract problem))
  | noSources (name root : Text) : Raises .sourceTree (.warning (.artifact name) (.permission (.noSources root)))
  | noSection (name : Text) : Raises .manifestSection (.warning (.artifact name) (.permission .noSection))
  | missing (name : Text) (names : List Text) :
      Raises .permissions (.error (.artifact name) (.permission (.missing names)))

theorem mem_unreadable {p : Path} {text : Except ReadFailure Text} {f : Finding} :
    f ∈ unreadable p text ↔ ∃ failure, text = .error failure ∧ f = .error (.artifact p.label) (.unreadable failure) := by
  cases text with
  | error failure => simp [unreadable]
  | ok t => simp [unreadable]

theorem raises_of_mem_catalog {shape : Command.Shape} {t : Text} {f : Finding}
    (mem : f ∈ (Catalog.ofText shape t).findings) : Part.catalog.Raises f := by
  by_cases declared : shape.argumentLists t = []
  · simp only [Catalog.ofText, declared, List.mem_singleton] at mem
    rw [mem]
    exact .catalog _ _
  · rw [Command.ofText_of_declared declared] at mem
    obtain ⟨⟨index, verdict⟩, listed, mem⟩ := List.mem_flatMap.mp mem
    obtain ⟨⟨severity, problem⟩, found, rfl⟩ := List.mem_map.mp mem
    obtain ⟨owners, arguments, -, rfl⟩ := Command.exists_of_mem_verdicts listed
    rw [Command.Shape.verdict] at found
    split at found
    next =>
      obtain ⟨rfl, rfl⟩ := Prod.mk.inj (List.mem_singleton.mp found)
      exact .catalog _ _
    next d _ =>
      rw [Command.problems_eq] at found
      rcases List.mem_append.mp found with escape | error
      · obtain ⟨field, c, eq⟩ := Command.warning_of_mem_escapeProblems escape
        obtain ⟨rfl, rfl⟩ := Prod.mk.inj eq
        exact .escape _ field c
      · obtain ⟨problem, -, eq⟩ := List.mem_map.mp error
        obtain ⟨rfl, rfl⟩ := Prod.mk.inj eq
        exact .catalog _ _

theorem raises_of_mem_cards {artifact t : Text} {f : Finding} (mem : f ∈ (Cards.ofText artifact t).findings) :
    Part.cards.Raises f := by
  have alone : ∀ {problem}, f ∈ (Cards.rejected artifact problem).findings → Part.cards.Raises f := by
    intro problem mem
    rw [List.mem_singleton.mp mem]
    exact .card _ _
  rw [Cards.ofText] at mem
  split at mem
  · exact alone mem
  · rw [Cards.ofJson] at mem
    split at mem
    · exact alone mem
    · exact alone mem
    · obtain ⟨⟨index, element, problems⟩, -, mem⟩ := List.mem_flatMap.mp mem
      obtain ⟨problem, -, rfl⟩ := List.mem_map.mp mem
      exact .card _ _

theorem raises_of_mem_contract {client server : Text} {f : Finding} (mem : f ∈ Contract.check client server) :
    Part.contract.Raises f := by
  have each : ∀ {locator problem names}, f ∈ Contract.findings locator problem names → Part.contract.Raises f := by
    intro locator problem names mem
    rw [Contract.findings] at mem
    split at mem
    · cases mem
    · rw [List.mem_singleton.mp mem]
      exact .contract _ _
  simp only [Contract.check, Contract.compare, List.mem_append] at mem
  rcases mem with ((mem | mem) | mem) | mem <;> exact each mem

theorem eq_of_mem_warnUnless {holds : Bool} {p : Path} {problem : Permission.Problem} {f : Finding}
    (mem : f ∈ warnUnless holds p problem) : f = .warning (.artifact p.label) (.permission problem) := by
  cases holds with
  | true => cases mem
  | false => exact List.mem_singleton.mp mem

/-- A part raises findings of its kinds only. -/
theorem Part.raises_of_mem {store : Store} {layout : Layout} {p : Part} {f : Finding}
    (mem : f ∈ p.findings store layout) : p.Raises f := by
  cases p with
  | reading a =>
    obtain ⟨failure, -, rfl⟩ := mem_unreadable.mp mem
    exact .unreadable a _ failure
  | catalog =>
    simp only [findings, catalogOf] at mem
    split at mem
    · cases mem
    · exact raises_of_mem_catalog mem
  | cards =>
    simp only [findings, cardFindings] at mem
    split at mem
    · cases mem
    · exact raises_of_mem_cards mem
  | contract =>
    simp only [findings, contractFindings] at mem
    split at mem
    · exact raises_of_mem_contract mem
    · cases mem
  | sourceTree =>
    rw [eq_of_mem_warnUnless mem]
    exact .noSources _ _
  | manifestSection =>
    rw [eq_of_mem_warnUnless mem]
    exact .noSection _
  | permissions =>
    simp only [findings, Permission.Universe.findings] at mem
    split at mem
    · cases mem
    · rw [List.mem_singleton.mp mem]
      exact .missing _ _

theorem resolveServer_congr {s s' : Store} {layout : Layout}
    (has : ∀ p ∈ layout.server :: layout.fallbacks, s.has p = s'.has p) :
    layout.resolveServer s = layout.resolveServer s' := by
  rw [Layout.resolveServer, Layout.resolveServer, ← List.head?_filter, ← List.head?_filter, List.filter_congr has]

theorem inSources_congr {s s' : Store} {root : Path}
    (walk : s.walk root Permission.sourceExtensions = s'.walk root Permission.sourceExtensions)
    (read : ∀ p ∈ s.walk root Permission.sourceExtensions, s.read p = s'.read p) :
    Permission.inSources s root = Permission.inSources s' root := by
  have texts : (s.walk root Permission.sourceExtensions).filterMap s.read? =
      (s.walk root Permission.sourceExtensions).filterMap s'.read? := by
    refine List.filterMap_congr fun p mem => ?_
    rw [Store.read?, Store.read?, read p mem]
  rw [Permission.inSources, Permission.inSources, ← walk, texts]

section
variable {store : Store} {layout : Layout} {name : Text}

/-- A permission is required by a catalog that can be read, or by a source that can be read. -/
def Required (store : Store) (layout : Layout) (name : Text) : Prop :=
  (∃ t, store.read layout.catalog = .ok t ∧ name ∈ (Catalog.ofText .standard t).permissions) ∨
    ∃ p ∈ store.walk layout.sources Permission.sourceExtensions, ∃ t, store.read p = .ok t ∧ name ∈ Permission.inCode t

/-- A permission is declared by a manifest that can be read. -/
def Declared (store : Store) (layout : Layout) (name : Text) : Prop :=
  ∃ t, store.read layout.manifest = .ok t ∧ name ∈ (Manifest.ofText t).permissions

theorem mem_inSources {root : Path} : name ∈ Permission.inSources store root ↔
    ∃ p ∈ store.walk root Permission.sourceExtensions, ∃ t, store.read p = .ok t ∧ name ∈ Permission.inCode t := by
  have read? : ∀ {p t}, store.read? p = some t ↔ store.read p = .ok t := by
    intro p t
    rw [Store.read?]
    cases store.read p <;> simp [Except.toOption]
  simp only [Permission.inSources, NameSet.mem_ofList, List.mem_flatMap, List.mem_filterMap, read?]
  constructor
  · rintro ⟨t, ⟨p, listed, read⟩, mem⟩
    exact ⟨p, listed, t, read, mem⟩
  · rintro ⟨p, listed, t, read, mem⟩
    exact ⟨t, ⟨p, listed, read⟩, mem⟩

theorem mem_missing : name ∈ (compared store layout).missing ↔ Required store layout name ∧ ¬ Declared store layout name := by
  have catalog : name ∈ (catalogOf (store.read layout.catalog)).permissions ↔
      ∃ t, store.read layout.catalog = .ok t ∧ name ∈ (Catalog.ofText .standard t).permissions := by
    cases store.read layout.catalog <;> simp [catalogOf, Catalog.empty]
  have manifest : name ∈ (manifestOf (store.read layout.manifest)).permissions ↔ Declared store layout name := by
    rw [Declared]
    cases store.read layout.manifest <;> simp [manifestOf]
  rw [Permission.Universe.missing, NameSet.mem_diff, Permission.Universe.required, NameSet.mem_union]
  exact and_congr (or_congr catalog mem_inSources) (not_congr manifest)

end

end Audit
end PluginAudit
