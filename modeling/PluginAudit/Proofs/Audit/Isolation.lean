import PluginAudit.Proofs.Audit.Parts
import PluginAudit.Store.Memory
import Mathlib.Data.List.Nodup

/-!
# Isolation of artifacts

Two stores that differ in one artifact give the same findings, apart from those that concern this artifact
(`raised_agree`). A part of an audit raises the same from both if it does not need the artifact
(`Part.findings_congr`), and only what concerns it if it does (`Part.concerned_of_needs`).
-/
namespace PluginAudit

/-- Two stores that answer alike except what is read at one path, however that path is spelled. -/
structure Store.AgreeExcept (p : Path) (s s' : Store) : Prop where
  read : ∀ q, q.same p = false → s.read q = s'.read q
  has : ∀ q, s.has q = s'.has q
  walk : ∀ root extensions, s.walk root extensions = s'.walk root extensions

/-- The problems that what is read of an artifact can make a difference to. -/
def Artifact.concerns : Artifact → Problem → Bool
  | catalog, .catalog _ => true
  | catalog, .permission (.missing _) => true
  | cards, .card _ => true
  | client, .contract _ => true
  | server, .contract _ => true
  | manifest, .permission .noSection => true
  | manifest, .permission (.missing _) => true
  | _, _ => false

def Finding.isMissing (f : Finding) : Bool :=
  match f.problem with
  | .permission (.missing _) => true
  | _ => false

namespace Audit

/-- A raised finding concerns an artifact if it was raised by reading it or is of a kind to which the
    artifact can make a difference. -/
def Concerns (a : Artifact) (entry : Part × Finding) : Prop := entry.1 = .reading a ∨ a.concerns entry.2.problem

instance (a : Artifact) (entry : Part × Finding) : Decidable (Concerns a entry) :=
  inferInstanceAs (Decidable (_ ∨ _))

/-- The artifacts that a part of an audit needs. -/
def Part.needs : Part → List Artifact
  | reading a => [a]
  | catalog => [.catalog]
  | cards => [.cards]
  | contract => [.client, .server]
  | sourceTree => []
  | manifestSection => [.manifest]
  | permissions => [.catalog, .manifest]

section
variable {a : Artifact} {s s' : Store} {layout : Layout}

theorem path_congr (has : ∀ q, s.has q = s'.has q) (a : Artifact) : a.path s layout = a.path s' layout := by
  cases a with
  | server => exact resolveServer_congr fun q _ => has q
  | _ => rfl

theorem Part.findings_congr {p : Part} (has : ∀ q, s.has q = s'.has q)
    (read : ∀ b ∈ p.needs, s.read (b.path s layout) = s'.read (b.path s layout))
    (code : Permission.inSources s layout.sources = Permission.inSources s' layout.sources) :
    p.findings s layout = p.findings s' layout := by
  cases p with
  | reading b => rw [findings, findings, ← path_congr has b, read b (List.mem_singleton.mpr rfl)]
  | catalog =>
    have catalog : s.read layout.catalog = s'.read layout.catalog := read .catalog (by decide)
    rw [findings, findings, catalog]
  | cards =>
    have cards : s.read layout.cards = s'.read layout.cards := read .cards (by decide)
    rw [findings, findings, cards]
  | contract =>
    have client : s.read layout.client = s'.read layout.client := read .client (by decide)
    have server : s.read (layout.resolveServer s) = s'.read (layout.resolveServer s) := read .server (by decide)
    rw [findings, findings, client, server, resolveServer_congr fun q _ => has q]
  | sourceTree => rw [findings, findings, has]
  | manifestSection =>
    have manifest : s.read layout.manifest = s'.read layout.manifest := read .manifest (by decide)
    rw [findings, findings, manifest]
  | permissions =>
    have catalog : s.read layout.catalog = s'.read layout.catalog := read .catalog (by decide)
    have manifest : s.read layout.manifest = s'.read layout.manifest := read .manifest (by decide)
    rw [findings, findings, compared, compared, catalog, manifest, code]

theorem Part.concerned_of_needs {p : Part} (needed : a ∈ p.needs) {f : Finding} (mem : f ∈ p.findings s layout) :
    Concerns a (p, f) := by
  cases raises_of_mem mem with
  | unreadable b =>
    rw [List.mem_singleton.mp needed]
    exact .inl rfl
  | noSources => cases needed
  | catalog | escape | card | noSection =>
    rw [List.mem_singleton.mp needed]
    exact .inr rfl
  | contract | missing =>
    rcases List.mem_cons.mp needed with rfl | needed
    · exact .inr rfl
    · rw [List.mem_singleton.mp needed]
      exact .inr rfl

theorem filter_flatMap_part {ps : List Part} (distinct : ps.Nodup) {p : Part} (mem : p ∈ ps) (found : Part → List Finding) :
    (ps.flatMap fun q => (found q).map (q, ·)).filter (·.1 = p) = (found p).map (p, ·) := by
  have own : ∀ q, ((found q).map (q, ·)).filter (·.1 = p) = if q = p then (found q).map (q, ·) else [] := by
    intro q
    by_cases same : q = p
    · simp [same, List.filter_map, Function.comp_def]
    · simp [same, List.filter_map, Function.comp_def]
  rw [List.filter_flatMap]
  simp only [own]
  induction ps with
  | nil => cases mem
  | cons q ps ih =>
    obtain ⟨new, distinct⟩ := List.nodup_cons.mp distinct
    rw [List.flatMap_cons]
    by_cases same : q = p
    · subst same
      have others : (ps.flatMap fun q' => if q' = q then (found q').map (q', ·) else []) = [] := by
        refine List.flatMap_eq_nil_iff.mpr fun q' mem' => if_neg ?_
        rintro rfl
        exact new mem'
      rw [others, if_pos rfl, List.append_nil]
    · rw [if_neg same, List.nil_append]
      exact ih distinct ((List.mem_cons.mp mem).resolve_left (Ne.symm same))

theorem filter_raised_part (p : Part) :
    (raised s layout).filter (·.1 = p) = (p.findings s layout).map (p, ·) := by
  refine filter_flatMap_part (by decide) ?_ _
  cases p with
  | reading a => cases a <;> decide
  | _ => decide

theorem filter_raised_congr (agree : s.AgreeExcept (a.path s layout) s')
    (alone : ∀ b, b ≠ a → (b.path s layout).same (a.path s layout) = false)
    (outside : ∀ q ∈ s.walk layout.sources Permission.sourceExtensions, q.same (a.path s layout) = false) :
    (raised s layout).filter (¬ Concerns a ·) = (raised s' layout).filter (¬ Concerns a ·) := by
  rw [raised, raised, List.filter_flatMap, List.filter_flatMap]
  refine List.flatMap_congr fun p _ => ?_
  by_cases needed : a ∈ p.needs
  -- All that a part raises about the artifact is left out on both sides, whatever was read of it.
  · have dropped : ∀ run : Store, ((p.findings run layout).map (p, ·)).filter (¬ Concerns a ·) = [] := by
      intro run
      refine List.filter_eq_nil_iff.mpr fun entry mem => ?_
      obtain ⟨f, found, rfl⟩ := List.mem_map.mp mem
      simpa using Part.concerned_of_needs needed found
    rw [dropped, dropped]
  · have read : ∀ b ∈ p.needs, s.read (b.path s layout) = s'.read (b.path s layout) := by
      intro b mem
      refine agree.read _ (alone b ?_)
      rintro rfl
      exact needed mem
    have code := inSources_congr (agree.walk _ _) fun q mem => agree.read q (outside q mem)
    rw [Part.findings_congr agree.has read code]

end

/-- The required permissions that are not declared make up one error, if there are any. -/
def ListsMissing (store : Store) (layout : Layout) (found : List Finding) : Prop :=
  ((∀ name, Required store layout name → Declared store layout name) ∧ found = []) ∨
    ∃ names : List Text, names ≠ [] ∧ names.Pairwise (· < ·) ∧
      (∀ name, name ∈ names ↔ Required store layout name ∧ ¬ Declared store layout name) ∧
      found = [.error (.artifact layout.manifest.label) (.permission (.missing names))]

theorem listsMissing_findings (store : Store) (layout : Layout) :
    ListsMissing store layout (Part.permissions.findings store layout) := by
  rw [Part.findings, Permission.Universe.findings]
  split
  next empty =>
    left
    refine ⟨fun name required => ?_, rfl⟩
    by_contra undeclared
    exact NameSet.isEmpty_iff.mp empty name (mem_missing.mpr ⟨required, undeclared⟩)
  next nonempty =>
    right
    refine ⟨_, fun none => nonempty ?_, (compared store layout).missing.ascending, fun name => mem_missing, rfl⟩
    rw [NameSet.isEmpty, none, List.isEmpty_nil]

theorem filter_isMissing_audit (store : Store) (layout : Layout) :
    (audit store layout).findings.filter Finding.isMissing = Part.permissions.findings store layout := by
  have kind : ∀ entry ∈ raised store layout, entry.2.isMissing = decide (entry.1 = .permissions) := by
    rintro ⟨p, f⟩ mem
    cases Part.raises_of_mem (mem_raised.mp mem) <;> rfl
  rw [← map_snd_raised, List.filter_map]
  have parts : (raised store layout).filter (Finding.isMissing ∘ Prod.snd) =
      (raised store layout).filter (·.1 = .permissions) := List.filter_congr kind
  rw [parts, filter_raised_part, List.map_map]
  exact List.map_id _

/-- A run of an audit: what it raises is what it reports, the failures to read are raised by reading, an
    artifact that cannot be read is reported once, and the missing permissions are those that what can be
    read requires and does not declare. -/
structure Faithful (a : Artifact) (store : Store) (layout : Layout) : Prop where
  reported : (raised store layout).map Prod.snd = (audit store layout).findings
  failures : ∀ b f, (.reading b, f) ∈ raised store layout ↔ ∃ failure,
    store.read (b.path store layout) = .error failure ∧
      f = .error (.artifact (b.path store layout).label) (.unreadable failure)
  only : ∀ entry ∈ raised store layout, ∀ failure, entry.2.problem = .unreadable failure → ∃ b, entry.1 = .reading b
  once : ∀ failure, store.read (a.path store layout) = .error failure →
    (raised store layout).filter (·.1 = .reading a) =
      [(.reading a, .error (.artifact (a.path store layout).label) (.unreadable failure))]
  missing : ListsMissing store layout ((audit store layout).findings.filter Finding.isMissing)

theorem faithful (a : Artifact) (store : Store) (layout : Layout) : Faithful a store layout where
  reported := map_snd_raised store layout
  failures b f := mem_raised.trans mem_unreadable
  only := by
    rintro ⟨p, f⟩ mem failure kind
    cases Part.raises_of_mem (mem_raised.mp mem) with
    | unreadable b => exact ⟨b, rfl⟩
    | catalog | escape | card | contract | noSources | noSection | missing => cases kind
  once failure failed := by
    rw [filter_raised_part, Part.findings, failed]
    rfl
  missing := by
    rw [filter_isMissing_audit]
    exact listsMissing_findings store layout

/-- From two stores that differ in one artifact only, which is none of the sources, an audit raises the
    same findings in the same order, but for those that concern this artifact. -/
theorem raised_agree {a : Artifact} {s s' : Store} {layout : Layout} (agree : s.AgreeExcept (a.path s layout) s')
    (alone : ∀ b, b ≠ a → (b.path s layout).same (a.path s layout) = false)
    (outside : ∀ q ∈ s.walk layout.sources Permission.sourceExtensions, q.same (a.path s layout) = false) :
    (raised s layout).filter (¬ Concerns a ·) = (raised s' layout).filter (¬ Concerns a ·) ∧
      Faithful a s layout ∧ Faithful a s' layout :=
  ⟨filter_raised_congr agree alone outside, faithful a s layout, faithful a s' layout⟩

def garbled (p : Path) (s : Store) : Store :=
  { s with read := fun q => if q.same p then .error (.failed (lit "invalid data")) else s.read q }

/-- A layout with a server at a fallback only. -/
def displaced : Layout :=
  ⟨⟨lit "catalog"⟩, ⟨lit "cards"⟩, ⟨lit "client"⟩, ⟨lit "server"⟩, ⟨lit "manifest"⟩, ⟨lit "sources"⟩, [⟨lit "old/server"⟩]⟩

/-- A project without a catalog and with faults in every other artifact. -/
def faulty : Store := Memory.toStore <| .ofList
  [(displaced.cards, lit "[]"), (displaced.client, lit "requestUpdate(\"a\");"), (⟨lit "old/server"⟩, lit "case \"get_b\":"),
   (displaced.manifest, lit "name: x"), (⟨lit "sources/A.java"⟩, lit "p.hasPermission(\"q\")")]

/-- The same project with a server file that is not UTF-8, named by another spelling of its path. -/
def unreadableServer : Store := garbled ⟨lit "old//server"⟩ faulty

theorem raised_agree_unreadableServer :
    faulty.AgreeExcept (Artifact.server.path faulty displaced) unreadableServer ∧
    (∀ b : Artifact, b ≠ .server → (b.path faulty displaced).same (Artifact.server.path faulty displaced) = false) ∧
    (∀ q ∈ faulty.walk displaced.sources Permission.sourceExtensions,
      q.same (Artifact.server.path faulty displaced) = false) ∧
    (raised faulty displaced).filter (¬ Concerns .server ·) =
      (raised unreadableServer displaced).filter (¬ Concerns .server ·) ∧
    Faithful .server faulty displaced ∧ Faithful .server unreadableServer displaced ∧
    ((raised unreadableServer displaced).filter (¬ Concerns .server ·)).map Prod.fst =
      [.reading .catalog, .cards, .manifestSection, .permissions] := by
  have server : Artifact.server.path faulty displaced = ⟨lit "old/server"⟩ := by decide +kernel
  have agree : faulty.AgreeExcept (Artifact.server.path faulty displaced) unreadableServer := by
    refine ⟨fun q other => ?_, fun _ => rfl, fun _ _ => rfl⟩
    have spelled : q.same ⟨lit "old//server"⟩ = q.same ⟨lit "old/server"⟩ := by
      rw [Path.same, Path.same]
      rfl
    refine (if_neg ?_).symm
    rw [spelled, ← server, other]
    decide
  have alone : ∀ b : Artifact, b ≠ .server →
      (b.path faulty displaced).same (Artifact.server.path faulty displaced) = false := by
    intro b other
    cases b with
    | server => exact absurd rfl other
    | catalog | cards | client | manifest => decide +kernel
  have outside : ∀ q ∈ faulty.walk displaced.sources Permission.sourceExtensions,
      q.same (Artifact.server.path faulty displaced) = false := by decide +kernel
  obtain ⟨same, first, second⟩ := raised_agree agree alone outside
  exact ⟨agree, alone, outside, same, first, second, by decide +kernel⟩

end Audit
end PluginAudit
