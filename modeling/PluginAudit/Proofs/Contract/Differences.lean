import PluginAudit.Proofs.Contract.Lines

/-!
# Differences between the sides

The check of two sides reports four differences of sets (`Reported`). For source texts made of lines, the sets are
those that the lines name (`check_text`).
-/
namespace PluginAudit.Contract

/-- An error lists in ascending order the names that have a property, if any name has it. -/
def Reported (locator : Text) (problem : List Text → Problem) (has : Text → Prop) (found : List Finding) : Prop :=
  ((∀ name, ¬ has name) ∧ found = []) ∨ ∃ names : List Text, names ≠ [] ∧ names.Pairwise (· < ·) ∧
    (∀ name, name ∈ names ↔ has name) ∧ found = [.error (.artifact locator) (.contract (problem names))]

theorem reported_findings (locator : Text) (problem : List Text → Problem) {has : Text → Prop} {names : NameSet}
    (same : ∀ name, name ∈ names ↔ has name) : Reported locator problem has (findings locator problem names) := by
  by_cases empty : names.isEmpty
  · left
    refine ⟨fun name holds => NameSet.isEmpty_iff.mp empty name ((same name).mpr holds), ?_⟩
    rw [findings, if_pos empty]
  · right
    have nonempty : names.toList ≠ [] := fun none => empty (by rw [NameSet.isEmpty, none, List.isEmpty_nil])
    refine ⟨names.toList, nonempty, names.ascending, same, ?_⟩
    rw [findings, if_neg empty]

theorem isRequest_iff {name : Text} :
    isRequest name ↔ requestStart <+: name ∧ requestStart.length < name.length := by
  rw [isRequest, Option.any_eq_true]
  constructor
  · rintro ⟨rest, found, longer⟩
    obtain rfl := Text.after?_eq_some_iff.mp found
    have := List.length_pos_iff.mpr (by simpa using longer : rest ≠ [])
    exact ⟨⟨rest, rfl⟩, by rw [List.length_append]; omega⟩
  · rintro ⟨⟨rest, rfl⟩, longer⟩
    rw [List.length_append] at longer
    have : rest ≠ [] := List.length_pos_iff.mp (by omega)
    exact ⟨rest, Text.after?_eq_some_iff.mpr rfl, by simpa using this⟩

section
variable (lines : List Line) (name : Text)

/-- Lines request a name: in full, or without what requests begin with where they ask for an update. -/
def Requested : Prop :=
  (name ∈ named .send lines ∧ requestStart <+: name ∧ requestStart.length < name.length) ∨
    ∃ s ∈ named .update lines, name = requestStart ++ s

def RequestHandled : Prop :=
  name ∈ named .branch lines ∧ requestStart <+: name ∧ requestStart.length < name.length

/-- Lines send a response, or it is one that is sent without a request. -/
def Responded : Prop := name ∈ named .respond lines ∨ name ∈ internalResponses

theorem mem_requests_text : name ∈ (Client.ofText (text lines)).requests ↔ Requested lines name := by
  rw [Client.ofText, NameSet.mem_ofList, literals_send, literals_update, List.mem_append, List.mem_filter,
    isRequest_iff, List.mem_map, Requested]
  refine or_congr_right ⟨?_, ?_⟩
  · rintro ⟨s, mem, rfl⟩
    exact ⟨s, (List.mem_filter.mp mem).1, rfl⟩
  · rintro ⟨s, mem, rfl⟩
    exact ⟨s, List.mem_filter.mpr ⟨mem, by simpa using ne_nil_of_mem_named mem⟩, rfl⟩

theorem mem_handled_text : name ∈ (Client.ofText (text lines)).handled ↔ name ∈ named .branch lines := by
  rw [Client.ofText, NameSet.mem_ofList, branchLabels_text, List.mem_filter]
  exact and_iff_left_of_imp fun mem => by simpa using ne_nil_of_mem_named mem

theorem mem_requestsHandled_text : name ∈ (Server.ofText (text lines)).handled ↔ RequestHandled lines name := by
  rw [Server.ofText, NameSet.mem_ofList, branchLabels_text, List.mem_filter, isRequest_iff, RequestHandled]

theorem mem_responses_text : name ∈ (Server.ofText (text lines)).responses ↔ name ∈ named .respond lines := by
  rw [Server.ofText, NameSet.mem_ofList, literals_respond, List.mem_filter]
  exact and_iff_left_of_imp fun mem => by simpa using ne_nil_of_mem_named mem

theorem mem_sent_text : name ∈ (Server.ofText (text lines)).sent ↔ Responded lines name := by
  rw [Server.sent, NameSet.mem_union, mem_responses_text, NameSet.mem_ofList, Responded]

end

/-- Of a client and a server that are written in lines, the check reads what the lines name, and it reports
    what one side sends and the other does not handle, or the other way round. -/
theorem check_text (client server : List Line) :
    ((∀ name, name ∈ (Client.ofText (text client)).requests ↔ Requested client name) ∧
      ∀ name, name ∈ (Client.ofText (text client)).handled ↔ name ∈ named .branch client) ∧
    ((∀ name, name ∈ (Server.ofText (text server)).handled ↔ RequestHandled server name) ∧
      ∀ name, name ∈ (Server.ofText (text server)).responses ↔ name ∈ named .respond server) ∧
    ∃ requests handlers responses branches,
      check (text client) (text server) = requests ++ handlers ++ responses ++ branches ∧
      Reported (lit "UI->Server") .unhandledRequests
        (fun name => Requested client name ∧ ¬ RequestHandled server name) requests ∧
      Reported (lit "Server") .unrequestedHandlers
        (fun name => RequestHandled server name ∧ ¬ Requested client name) handlers ∧
      Reported (lit "Server->UI") .unhandledResponses
        (fun name => Responded server name ∧ name ∉ named .branch client) responses ∧
      Reported (lit "UI") .unsentResponses
        (fun name => name ∈ named .branch client ∧ ¬ Responded server name) branches := by
  refine ⟨⟨mem_requests_text client, mem_handled_text client⟩,
    ⟨mem_requestsHandled_text server, mem_responses_text server⟩, _, _, _, _, rfl, ?_, ?_, ?_, ?_⟩
  · refine reported_findings _ _ fun name => ?_
    rw [NameSet.mem_diff, mem_requests_text, mem_requestsHandled_text]
  · refine reported_findings _ _ fun name => ?_
    rw [NameSet.mem_diff, mem_requests_text, mem_requestsHandled_text]
  · refine reported_findings _ _ fun name => ?_
    rw [NameSet.mem_diff, mem_sent_text, mem_handled_text]
  · refine reported_findings _ _ fun name => ?_
    rw [NameSet.mem_diff, mem_sent_text, mem_handled_text]

/-- Names that are words of statements themselves, or too short for a request. -/
theorem check_text_keywords : ∃ client server : List Line,
    text client = lit "sendToServer(CHANNEL, \"get_case\"); requestUpdate(\"sendToServer\");case \"get_\": break;" ++
      lit "sendToServer(CHANNEL, \"get_\");case \"case\": break;" ∧
    text server = lit "case \"get_case\": break;case \"get_\": break; sendData(player, \"case\", json);" ++
      lit "case \"sendData\": break;sendData(player, \"case\", json);" ∧
    ((∀ name, name ∈ (Client.ofText (text client)).requests ↔ Requested client name) ∧
      ∀ name, name ∈ (Client.ofText (text client)).handled ↔ name ∈ named .branch client) ∧
    ((∀ name, name ∈ (Server.ofText (text server)).handled ↔ RequestHandled server name) ∧
      ∀ name, name ∈ (Server.ofText (text server)).responses ↔ name ∈ named .respond server) ∧
    (Client.ofText (text client)).requests.toList = [lit "get_case", lit "get_sendToServer"] ∧
    (Client.ofText (text client)).handled.toList = [lit "case", lit "get_"] ∧
    (Server.ofText (text server)).handled.toList = [lit "get_case"] ∧
    (Server.ofText (text server)).responses.toList = [lit "case"] ∧
    check (text client) (text server) = [
      .error (.artifact (lit "UI->Server")) (.contract (.unhandledRequests [lit "get_sendToServer"])),
      .error (.artifact (lit "Server->UI"))
        (.contract (.unhandledResponses [lit "open_main_menu", lit "ui_autotest_start"])),
      .error (.artifact (lit "UI")) (.contract (.unsentResponses [lit "get_"]))] := by
  let spaced : Gap := ⟨lit " ", rfl⟩
  let client : List Line := [
    ⟨.none, .send, lit "get_case", by decide, by decide, spaced⟩,
    ⟨.none, .update, lit "sendToServer", by decide, by decide, .none⟩,
    ⟨.none, .branch, lit "get_", by decide, by decide, .none⟩,
    ⟨.none, .send, lit "get_", by decide, by decide, .none⟩,
    ⟨.none, .branch, lit "case", by decide, by decide, .none⟩]
  let server : List Line := [
    ⟨.none, .branch, lit "get_case", by decide, by decide, .none⟩,
    ⟨.none, .branch, lit "get_", by decide, by decide, spaced⟩,
    ⟨.none, .respond, lit "case", by decide, by decide, .none⟩,
    ⟨.none, .branch, lit "sendData", by decide, by decide, .none⟩,
    ⟨.none, .respond, lit "case", by decide, by decide, .none⟩]
  obtain ⟨clientReads, serverReads, -⟩ := check_text client server
  exact ⟨client, server, by decide +kernel, by decide +kernel, clientReads, serverReads, by decide +kernel,
    by decide +kernel, by decide +kernel, by decide +kernel, by decide +kernel⟩
end PluginAudit.Contract
