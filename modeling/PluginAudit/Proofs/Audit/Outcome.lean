import PluginAudit.Proofs.Audit.Parts
import PluginAudit.Store.Memory
import PluginAudit.Report.Page

/-!
# The outcome of an audit

An audit passes exactly when every artifact can be read and no check finds an error in or between them
(`exitCode_audit`), which is when each of its parts passes (`Part.Passes`).
-/
namespace PluginAudit

theorem Report.exitCode_eq_zero_iff {r : Report} : r.exitCode = 0 ↔ ∀ f ∈ r.findings, f.isError = false := by
  have clean : r.isClean ↔ ∀ f ∈ r.findings, f.isError = false := by
    simp [isClean, errors, List.filter_eq_nil_iff]
  rw [← clean, exitCode]
  cases r.isClean <;> simp

theorem Report.passed_prefix_page_iff {r : Report} :
    lit "Validation passed." <+: r.page .plain ↔ r.exitCode = 0 := by
  have begins : ∃ rest, r.page .plain =
      (if r.isClean then lit "Validation passed." else lit "Validation failed:") ++ rest :=
    ⟨_, List.append_assoc _ ['\n'] _⟩
  obtain ⟨rest, begins⟩ := begins
  rw [begins, exitCode]
  cases r.isClean with
  | true => exact iff_of_true ⟨rest, rfl⟩ rfl
  | false =>
    refine iff_of_false ?_ (by decide)
    rintro ⟨rest', written⟩
    have heading : lit "Validation passed." = lit "Validation failed:" :=
      (List.append_inj written (by decide)).1
    revert heading
    decide

theorem NameSet.isEmpty_diff_iff {s t : NameSet} : (s \ t).isEmpty ↔ ∀ name ∈ s, name ∈ t := by
  simp [NameSet.isEmpty_iff]

theorem NameSet.eq_iff_isEmpty_diff {s t : NameSet} : s = t ↔ (s \ t).isEmpty ∧ (t \ s).isEmpty := by
  rw [isEmpty_diff_iff, isEmpty_diff_iff]
  constructor
  · rintro rfl
    exact ⟨fun _ mem => mem, fun _ mem => mem⟩
  · rintro ⟨sub, sup⟩
    exact NameSet.ext fun name => ⟨sub name, sup name⟩

theorem Contract.compare_eq_nil_iff {client : Client} {server : Server} :
    compare client server = [] ↔ client.requests = server.handled ∧ client.handled = server.sent := by
  have none : ∀ locator problem names, findings locator problem names = [] ↔ names.isEmpty := by
    intro locator problem names
    rw [findings]
    split <;> simp_all
  simp only [compare, List.append_eq_nil_iff, none, NameSet.eq_iff_isEmpty_diff]
  constructor
  · rintro ⟨⟨⟨requests, handlers⟩, responses⟩, branches⟩
    exact ⟨⟨requests, handlers⟩, branches, responses⟩
  · rintro ⟨⟨requests, handlers⟩, branches, responses⟩
    exact ⟨⟨⟨requests, handlers⟩, responses⟩, branches⟩

namespace Audit

section
variable {store : Store} {layout : Layout}

def Part.Passes (store : Store) (layout : Layout) (p : Part) : Prop := ∀ f ∈ p.findings store layout, f.isError = false

theorem Part.passes_iff_eq_nil {p : Part} (errors : ∀ f, p.Raises f → f.isError) :
    p.Passes store layout ↔ p.findings store layout = [] := by
  rw [List.eq_nil_iff_forall_not_mem]
  refine forall_congr' fun f => ⟨fun passes mem => ?_, fun none mem => absurd mem none⟩
  have error := errors f (raises_of_mem mem)
  rw [passes mem] at error
  cases error

theorem Part.passes_reading_iff {a : Artifact} :
    (Part.reading a).Passes store layout ↔ ∃ t, store.read (a.path store layout) = .ok t := by
  rw [passes_iff_eq_nil (by rintro f ⟨⟩; rfl), findings]
  cases store.read (a.path store layout) <;> simp [unreadable]

theorem Part.passes_catalog_iff {t : Text} (read : store.read layout.catalog = .ok t) :
    Part.catalog.Passes store layout ↔ ∀ f ∈ (Catalog.ofText .standard t).findings, f.isError = false := by
  rw [Passes, findings, read, catalogOf]

theorem Part.passes_cards_iff {t : Text} (read : store.read layout.cards = .ok t) :
    Part.cards.Passes store layout ↔ (Cards.ofText layout.cards.label t).findings = [] := by
  rw [passes_iff_eq_nil (by rintro f ⟨⟩; rfl), findings, read, cardFindings]

theorem Part.passes_contract_iff {client server : Text} (readClient : store.read layout.client = .ok client)
    (readServer : store.read (layout.resolveServer store) = .ok server) :
    Part.contract.Passes store layout ↔
      (Contract.Client.ofText client).requests = (Contract.Server.ofText server).handled ∧
        (Contract.Client.ofText client).handled = (Contract.Server.ofText server).sent := by
  rw [passes_iff_eq_nil (by rintro f ⟨⟩; rfl), findings, readClient, readServer, contractFindings, Contract.check,
    Contract.compare_eq_nil_iff]

theorem Part.passes_sourceTree : Part.sourceTree.Passes store layout := by
  intro f mem
  rw [eq_of_mem_warnUnless mem]
  rfl

theorem Part.passes_manifestSection : Part.manifestSection.Passes store layout := by
  intro f mem
  rw [eq_of_mem_warnUnless mem]
  rfl

theorem Part.passes_permissions_iff :
    Part.permissions.Passes store layout ↔ ∀ name, Required store layout name → Declared store layout name := by
  rw [passes_iff_eq_nil (by rintro f ⟨⟩; rfl), findings, Permission.Universe.findings]
  have none : (compared store layout).missing.isEmpty ↔ ∀ name, Required store layout name → Declared store layout name := by
    simp [NameSet.isEmpty_iff, mem_missing]
  rw [← none]
  split <;> simp_all

end

/-- A project passes its audit. -/
structure Passing (store : Store) (layout : Layout) : Prop where
  catalog : ∃ t, store.read layout.catalog = .ok t ∧ ∀ f ∈ (Catalog.ofText .standard t).findings, f.isError = false
  cards : ∃ t, store.read layout.cards = .ok t ∧ (Cards.ofText layout.cards.label t).findings = []
  contract : ∃ client server, store.read layout.client = .ok client ∧
    store.read (layout.resolveServer store) = .ok server ∧
    (Contract.Client.ofText client).requests = (Contract.Server.ofText server).handled ∧
    (Contract.Client.ofText client).handled =
      (Contract.Server.ofText server).responses ∪ .ofList Contract.internalResponses
  manifest : ∃ t, store.read layout.manifest = .ok t
  permissions : ∀ name, Required store layout name → Declared store layout name

/-- A finding is one of the warnings that an audit can give. -/
inductive Advice (layout : Layout) : Finding → Prop
  | escape (locator : Locator) (field : Text) (c : Char) :
      Advice layout (.warning locator (.catalog (.unrecognizedEscape field c)))
  | noSources : Advice layout (.warning (.artifact layout.manifest.label) (.permission (.noSources layout.sources.spelling)))
  | noSection : Advice layout (.warning (.artifact layout.manifest.label) (.permission .noSection))

theorem exitCode_eq_zero_iff_passes {store : Store} {layout : Layout} :
    (audit store layout).exitCode = 0 ↔ ∀ p ∈ parts, p.Passes store layout := by
  rw [Report.exitCode_eq_zero_iff, findings_audit]
  simp only [List.mem_flatMap, forall_exists_index, and_imp]
  exact ⟨fun passes p mem f found => passes f p mem found, fun passes f p mem found => passes p mem f found⟩

theorem passes_iff_passing {store : Store} {layout : Layout} :
    (∀ p ∈ parts, p.Passes store layout) ↔ Passing store layout := by
  constructor
  · intro passes
    -- The other conditions are about the texts that were read, so the readings come first.
    have reading : ∀ a, ∃ t, store.read (Artifact.path store layout a) = .ok t := fun a =>
      Part.passes_reading_iff.mp (passes (.reading a) (by cases a <;> decide))
    obtain ⟨catalog, readCatalog⟩ := reading .catalog
    obtain ⟨cards, readCards⟩ := reading .cards
    obtain ⟨client, readClient⟩ := reading .client
    obtain ⟨server, readServer⟩ := reading .server
    exact {
      catalog := ⟨catalog, readCatalog, (Part.passes_catalog_iff readCatalog).mp (passes .catalog (by decide))⟩
      cards := ⟨cards, readCards, (Part.passes_cards_iff readCards).mp (passes .cards (by decide))⟩
      contract := ⟨client, server, readClient, readServer,
        (Part.passes_contract_iff readClient readServer).mp (passes .contract (by decide))⟩
      manifest := reading .manifest
      permissions := Part.passes_permissions_iff.mp (passes .permissions (by decide)) }
  · rintro ⟨⟨catalog, readCatalog, errors⟩, ⟨cards, readCards, none⟩, ⟨client, server, readClient, readServer, kept⟩,
      ⟨manifest, readManifest⟩, declared⟩ p -
    cases p with
    | reading a =>
      rw [Part.passes_reading_iff]
      cases a with
      | catalog => exact ⟨catalog, readCatalog⟩
      | cards => exact ⟨cards, readCards⟩
      | client => exact ⟨client, readClient⟩
      | server => exact ⟨server, readServer⟩
      | manifest => exact ⟨manifest, readManifest⟩
    | catalog => exact (Part.passes_catalog_iff readCatalog).mpr errors
    | cards => exact (Part.passes_cards_iff readCards).mpr none
    | contract => exact (Part.passes_contract_iff readClient readServer).mpr kept
    | sourceTree => exact Part.passes_sourceTree
    | manifestSection => exact Part.passes_manifestSection
    | permissions => exact Part.passes_permissions_iff.mpr declared

theorem advice_of_mem_warnings {store : Store} {layout : Layout} {f : Finding}
    (mem : f ∈ (audit store layout).warnings) : Advice layout f := by
  obtain ⟨mem, warning⟩ := List.mem_filter.mp mem
  rw [findings_audit] at mem
  obtain ⟨p, -, found⟩ := List.mem_flatMap.mp mem
  cases Part.raises_of_mem found with
  | escape => exact .escape _ _ _
  | noSources =>
    rw [eq_of_mem_warnUnless found]
    exact .noSources
  | noSection =>
    rw [eq_of_mem_warnUnless found]
    exact .noSection
  | unreadable | catalog | card | contract | missing => cases warning

/-- The exit status of an audit is zero exactly when the project passes, and a printed audit begins by
    saying so exactly then. Warnings are unknown escapes, missing sources and a missing section, and a
    report with the same errors and any warnings has the same exit status. -/
theorem exitCode_audit (store : Store) (layout : Layout) :
    ((audit store layout).exitCode = 0 ↔ Passing store layout) ∧
    (∀ f ∈ (audit store layout).warnings, Advice layout f) ∧
    (∀ r : Report, r.errors = (audit store layout).errors → r.exitCode = (audit store layout).exitCode) ∧
    (lit "Validation passed." <+: (audit store layout).page .plain ↔ (audit store layout).exitCode = 0) := by
  refine ⟨exitCode_eq_zero_iff_passes.trans passes_iff_passing, fun f mem => advice_of_mem_warnings mem, fun r same => ?_,
    Report.passed_prefix_page_iff⟩
  rw [Report.exitCode, Report.isClean, same]
  rfl

def flat : Layout :=
  ⟨⟨lit "catalog"⟩, ⟨lit "cards"⟩, ⟨lit "client"⟩, ⟨lit "server"⟩, ⟨lit "manifest"⟩, ⟨lit "sources"⟩, [⟨lit "old"⟩]⟩

/-- A project without sources, whose catalog has an unknown escape and whose server is at a fallback. -/
def sourceless : Memory := .ofList
  [(flat.catalog, lit "new CommandInfo(\"/a\", \"A\", \"B\", \"C\\q\", CommandCategory.D, f(), f(), \" p \", true)"),
   (flat.cards, lit "[\x7b\"id\":\"a\",\"name\":\"A\",\"tagline\":\"B\",\"symbol\":\"C\",\"color\":\"#00fF00\",\"details\":[\"D\"]\x7d]"),
   (flat.client, lit "requestUpdate(\"a\"); case \"r\": case \"ui_autotest_start\": case \"open_main_menu\":"),
   (⟨lit "old"⟩, lit "case \"get_a\": sendData(player, \"r\", json);"),
   (flat.manifest, lit "permissions:\n  p:\n")]

theorem passing_sourceless : Passing sourceless.toStore flat ∧ (audit sourceless.toStore flat).warnings =
    [.warning (.record (lit "CommandCatalog") 1) (.catalog (.unrecognizedEscape (lit "fullDesc") 'q')),
     .warning (.artifact (lit "manifest")) (.permission (.noSources (lit "sources")))] := by
  refine ⟨(exitCode_audit _ _).1.mp ?_, ?_⟩
  · decide +kernel
  · decide +kernel

end Audit
end PluginAudit
