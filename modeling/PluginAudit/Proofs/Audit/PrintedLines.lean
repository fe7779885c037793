import PluginAudit.Proofs.Audit.Interchange
import PluginAudit.Proofs.Report.Cited
import PluginAudit.Proofs.Report.Page

/-!
# Lines of printed audits

Below its heading a printed report has one line for each finding, unless a finding has a line feed in it. The places
of findings come from the layout or are fixed (`Audit.name_of_mem_findings`), so with paths in one line this depends
on what messages cite from the artifacts (`oneLineEach_audit_iff`), and that can be text with a line feed
(`exists_not_oneLineEach`).
-/
namespace PluginAudit

namespace Text

theorem printLines_cons (line : Text) (lines : List Text) :
    printLines (line :: lines) = line ++ '\n' :: printLines lines := by
  simp [printLines]

/-- Lines that have no line feeds of their own are printed so that they can be read off. -/
theorem splitOn_printLines {lines : List Text} (free : ∀ line ∈ lines, '\n' ∉ line) :
    splitOn '\n' (printLines lines) = lines ++ [[]] := by
  induction lines with
  | nil => rfl
  | cons line lines ih =>
    obtain ⟨first, rest⟩ := List.forall_mem_cons.mp free
    rw [printLines_cons, splitOn_append first, ih rest, List.cons_append]

theorem count_printLines (lines : List Text) :
    (printLines lines).count '\n' = lines.length + lines.flatten.count '\n' := by
  induction lines with
  | nil => rfl
  | cons line lines ih =>
    rw [printLines_cons, List.count_append, List.count_cons_self, ih, List.flatten_cons, List.count_append,
      List.length_cons]
    omega

end Text

/-- Of a printed report, every line below the heading is that of one finding: the errors in order, and then
    the warnings in order. -/
structure Report.OneLineEach (r : Report) : Prop where
  count : (r.page .plain).count '\n' = 1 + r.findings.length
  lines : Text.splitOn '\n' (r.page .plain) =
    r.heading .plain :: (r.errors.map (lit " - " ++ ·.text) ++ r.warnings.map (lit " ~ " ++ ·.text)) ++ [[]]

def Locator.name : Locator → Text
  | artifact name => name
  | record name _ => name

theorem Locator.cites_text (l : Locator) : Cites l.text [l.name] := by
  cases l with
  | artifact name => exact .text name
  | record name index => exact ((Cites.text name).append (.bracketed index)).append (.wording (by decide))

theorem Finding.cites_text (f : Finding) : Cites f.text (f.locator.name :: f.problem.cited) :=
  (f.locator.cites_text.append (.wording (by decide))).append f.problem.cites_message

namespace Report

theorem plain_pageLines (r : Report) : r.pageLines .plain =
    r.heading .plain :: (r.errors.map (lit " - " ++ ·.text) ++ r.warnings.map (lit " ~ " ++ ·.text)) := by
  have error : entry .plain ['-'] .bullet = (lit " - " ++ ·.text) := by
    funext f
    simp only [entry, Renderer.plain, Finding.text, List.append_assoc]
    rfl
  have warning : entry .plain ['~'] .warning = (lit " ~ " ++ ·.text) := by
    funext f
    simp only [entry, Renderer.plain, Finding.text, List.append_assoc]
    rfl
  rw [pageLines, error, warning]

theorem length_pageLines (render : Renderer) (r : Report) : (r.pageLines render).length = 1 + r.findings.length := by
  rw [pageLines_eq, List.length_cons, List.length_map, r.errorsFirst.once.length_eq, Nat.add_comm]

theorem free_pageLines_iff {r : Report} :
    (∀ line ∈ r.pageLines .plain, '\n' ∉ line) ↔ ∀ f ∈ r.findings, '\n' ∉ f.text := by
  have heading : '\n' ∉ r.heading .plain := by
    rw [Report.heading]
    split <;> decide
  have bullet : ∀ f, '\n' ∈ line .plain f ↔ '\n' ∈ f.text := by
    intro f
    rw [line]
    split <;> simp [entry, Renderer.plain, Finding.text]
  rw [pageLines_eq, List.forall_mem_cons, List.forall_mem_map]
  simp only [heading, not_false_eq_true, true_and, bullet, r.errorsFirst.once.mem_iff]

/-- Every finding has one line exactly if none has a line feed in it. -/
theorem oneLineEach_iff {r : Report} : r.OneLineEach ↔ ∀ f ∈ r.findings, '\n' ∉ f.text := by
  have count := Text.count_printLines (r.pageLines .plain)
  rw [length_pageLines] at count
  rw [← free_pageLines_iff]
  have free_iff : (∀ line ∈ r.pageLines .plain, '\n' ∉ line) ↔ (r.pageLines .plain).flatten.count '\n' = 0 := by
    simp [List.count_eq_zero]
  constructor
  · intro each
    have := each.count.symm.trans count
    exact free_iff.mpr (by omega)
  · intro free
    have count_page : (r.page .plain).count '\n' = 1 + r.findings.length := by
      rw [page, count, free_iff.mp free, Nat.add_zero]
    refine ⟨count_page, ?_⟩
    rw [page, Text.splitOn_printLines free, plain_pageLines]

end Report

namespace Path

theorem mem_splitOn_of_mem_components {p : Path} {name : Text} (mem : .name name ∈ p.components) :
    name ∈ Text.splitOn '/' p.spelling := by
  rw [components] at mem
  rcases List.mem_append.mp mem with start | inner
  · split at start
    · simp at start
    · split at start <;> simp at start
  · obtain ⟨part, listed, means⟩ := List.mem_filterMap.mp inner
    rw [component?] at means
    split at means
    · cases means
    · split at means
      · cases means
      · exact Component.name.inj (Option.some.inj means) ▸ listed

theorem mem_spelling_of_mem_label {p : Path} {c : Char} (mem : c ∈ p.label) : c ∈ p.spelling := by
  rw [label] at mem
  cases named : p.fileName? with
  | none => simpa [named] using mem
  | some name =>
    have last : p.components.getLast? = some (.name name) := by
      rw [fileName?] at named
      split at named
      next t last => rw [last, Option.some.inj named]
      next => cases named
    exact Text.mem_of_mem_splitOn (mem_splitOn_of_mem_components (List.mem_of_getLast? last)) (by simpa [named] using mem)

end Path

namespace Audit

/-- The places that are named alike in every audit. -/
def fixedNames : List Text := [lit "CommandCatalog", lit "UI->Server", lit "Server", lit "Server->UI", lit "UI"]

theorem name_of_mem_catalog {shape : Command.Shape} {t : Text} {f : Finding}
    (mem : f ∈ (Catalog.ofText shape t).findings) : f.locator.name = shape.artifact := by
  by_cases declared : shape.argumentLists t = []
  · simp only [Catalog.ofText, declared, List.mem_singleton] at mem
    rw [mem]
    rfl
  · rw [Command.findings_of_declared declared] at mem
    obtain ⟨k, -, place⟩ := Command.locator_of_mem_runFindings mem
    rw [place]
    rfl

theorem name_of_mem_cards {artifact t : Text} {f : Finding} (mem : f ∈ (Cards.ofText artifact t).findings) :
    f.locator.name = artifact := by
  have alone : ∀ {problem}, f ∈ (Cards.rejected artifact problem).findings → f.locator.name = artifact := by
    intro problem mem
    rw [List.mem_singleton.mp mem]
    rfl
  rw [Cards.ofText] at mem
  split at mem
  · exact alone mem
  · rw [Cards.ofJson] at mem
    split at mem
    · exact alone mem
    · exact alone mem
    · obtain ⟨⟨index, element, problems⟩, -, mem⟩ := List.mem_flatMap.mp mem
      obtain ⟨problem, -, rfl⟩ := List.mem_map.mp mem
      rfl

theorem name_of_mem_contract {client server : Text} {f : Finding} (mem : f ∈ Contract.check client server) :
    f.locator.name ∈ fixedNames := by
  have each : ∀ {name problem names}, name ∈ fixedNames → f ∈ Contract.findings name problem names →
      f.locator.name ∈ fixedNames := by
    intro name problem names fixed mem
    rw [Contract.findings] at mem
    split at mem
    · cases mem
    · rw [List.mem_singleton.mp mem]
      exact fixed
  simp only [Contract.check, Contract.compare, List.mem_append] at mem
  rcases mem with ((mem | mem) | mem) | mem <;> exact each (by decide) mem

theorem name_of_mem_findings {store : Store} {layout : Layout} {f : Finding} (mem : f ∈ (audit store layout).findings) :
    f.locator.name ∈ fixedNames ∨ ∃ p ∈ layout.artifacts, f.locator.name = p.label := by
  rw [findings_audit] at mem
  obtain ⟨part, -, mem⟩ := List.mem_flatMap.mp mem
  have manifest : layout.manifest ∈ layout.artifacts := List.mem_append_left _ (by simp)
  cases part with
  | reading a =>
    obtain ⟨failure, -, rfl⟩ := mem_unreadable.mp mem
    exact .inr ⟨_, a.path_mem store layout, rfl⟩
  | catalog =>
    simp only [Part.findings, catalogOf] at mem
    split at mem
    · cases mem
    · exact .inl (name_of_mem_catalog mem ▸ List.mem_cons_self)
  | cards =>
    simp only [Part.findings, cardFindings] at mem
    split at mem
    · cases mem
    · exact .inr ⟨layout.cards, List.mem_append_left _ (by simp), name_of_mem_cards mem⟩
  | contract =>
    simp only [Part.findings, contractFindings] at mem
    split at mem
    · exact .inl (name_of_mem_contract mem)
    · cases mem
  | sourceTree =>
    rw [eq_of_mem_warnUnless mem]
    exact .inr ⟨layout.manifest, manifest, rfl⟩
  | manifestSection =>
    rw [eq_of_mem_warnUnless mem]
    exact .inr ⟨layout.manifest, manifest, rfl⟩
  | permissions =>
    simp only [Part.findings, Permission.Universe.findings] at mem
    split at mem
    · cases mem
    · rw [List.mem_singleton.mp mem]
      exact .inr ⟨layout.manifest, manifest, rfl⟩

end Audit

/-- In a printed audit of artifacts at paths in one line, every finding has one line exactly if none cites a
    line feed. -/
theorem oneLineEach_audit_iff (store : Store) {layout : Layout}
    (paths : ∀ p ∈ layout.sources :: layout.artifacts, '\n' ∉ p.spelling) :
    (audit store layout).OneLineEach ↔
      ∀ f ∈ (audit store layout).findings, ∀ cited ∈ f.problem.cited, '\n' ∉ cited := by
  have fixed : ∀ name ∈ Audit.fixedNames, '\n' ∉ name := by decide
  have place : ∀ f ∈ (audit store layout).findings, '\n' ∉ f.locator.name := by
    intro f mem
    rcases Audit.name_of_mem_findings mem with name | ⟨p, listed, name⟩
    · exact fixed _ name
    · rw [name]
      exact fun inLabel => paths p (List.mem_cons_of_mem _ listed) (Path.mem_spelling_of_mem_label inLabel)
  rw [Report.oneLineEach_iff]
  refine forall₂_congr fun f mem => ?_
  have text : '\n' ∈ f.text ↔ ∃ cited ∈ f.locator.name :: f.problem.cited, '\n' ∈ cited := f.cites_text
  simp [text, place f mem]

def letters : Layout := ⟨⟨lit "c"⟩, ⟨lit "r"⟩, ⟨lit "k"⟩, ⟨lit "s"⟩, ⟨lit "m"⟩, ⟨lit "d"⟩, []⟩

/-- A client and a server that differ, in a project without other artifacts. -/
def differing : Memory := .ofList [(letters.client, lit "case \"ui_a\":"), (letters.server, lit "case \"get_a\":")]

theorem oneLineEach_differing : (∀ p ∈ letters.sources :: letters.artifacts, '\n' ∉ p.spelling) ∧
    (audit differing.toStore letters).OneLineEach ∧ (audit differing.toStore letters).findings.length = 7 := by
  have paths : ∀ p ∈ letters.sources :: letters.artifacts, '\n' ∉ p.spelling := by decide
  exact ⟨paths, (oneLineEach_audit_iff _ paths).mpr (by decide +kernel), by decide +kernel⟩

/-- A project in which nothing is wrong but the category of the one command. -/
def uncategorized : Memory := .ofList
  [(letters.catalog,
      lit "new CommandInfo(\"/a\", \"A\", \"B\", \"C\", X\n - Server: forged, List.of(), List.of(), \"p\", true)"),
   (letters.cards,
      lit "[\x7b\"id\":\"a\",\"name\":\"A\",\"tagline\":\"T\",\"symbol\":\"S\",\"color\":\"#FFFFFF\",\"details\":[\"d\"]\x7d]"),
   (letters.client, lit "case \"open_main_menu\": case \"ui_autotest_start\":"),
   (letters.server, []),
   (letters.manifest, lit "permissions:\n  p:\n"),
   (⟨lit "d/A.java"⟩, [])]

theorem audit_uncategorized : audit uncategorized.toStore letters =
    ⟨[.error (.record (lit "CommandCatalog") 1) (.catalog (.missingCategory (lit "X\n - Server: forged")))]⟩ := by
  decide +kernel

/-- An expression in two lines in the place of a category is printed as it is, and its second line can look like
    that of another error. -/
theorem exists_not_oneLineEach : ∃ (m : Memory) (layout : Layout),
    (∀ p ∈ layout.sources :: layout.artifacts, '\n' ∉ p.spelling) ∧
    (audit m.toStore layout).findings.length = 1 ∧
    Text.splitOn '\n' ((audit m.toStore layout).page .plain) =
      [lit "Validation failed:", lit " - CommandCatalog[1]: category is not set: X", lit " - Server: forged", []] ∧
    ¬ (audit m.toStore layout).OneLineEach := by
  refine ⟨uncategorized, letters, by decide, ?_⟩
  rw [audit_uncategorized]
  exact ⟨by decide, by decide, fun each => absurd each.count (by decide)⟩

end PluginAudit
