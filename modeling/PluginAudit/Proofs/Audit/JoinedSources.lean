import PluginAudit.Proofs.Code.Joined
import PluginAudit.Contract.Sides
import PluginAudit.Permission.Requirement

/-!
# Sources that are joined

What is read of two sources with a semicolon between them is the union of what is read of each (`joined_union`). The
search has to go through the first, as an open parenthesis or quote would take in the second.
-/
namespace PluginAudit
open Code

variable {a b : Text}

/-- What is made of the calls in joined texts is what is made of those in each, if their places make no difference. -/
theorem filterMap_calls_joined {α : Type} {marker : Marker} (exhausted : Exhausted marker a)
    (nonempty : marker.name ≠ []) (identifier : Identifier marker.name) {item : Nat × List Text → Option α}
    (placeless : ∀ offset offset' arguments, item (offset, arguments) = item (offset', arguments)) (b : Text) :
    (calls marker (a ++ ';' :: b)).filterMap item =
      (calls marker a).filterMap item ++ (calls marker b).filterMap item := by
  rw [calls, calls, calls, exhausted.blocks_joined nonempty identifier, List.map_append, List.filterMap_append,
    List.filterMap_map, List.filterMap_map, List.filterMap_map, List.filterMap_map]
  exact congrArg _ (List.filterMap_congr fun block _ => placeless _ _ _)

theorem NameSet.ofList_append (names others : List Text) :
    NameSet.ofList (names ++ others) = NameSet.ofList names ∪ NameSet.ofList others :=
  NameSet.ext fun name => by simp

namespace Permission

theorem mem_inCode {t name : Text} : name ∈ inCode t ↔ ∃ function ∈ askingCalls,
    name ∈ (calls (.call function) t).filterMap fun (_, arguments) => asked? arguments := by
  rw [inCode, NameSet.mem_ofList, List.mem_flatMap]

theorem askingCalls_identifier : ∀ function ∈ askingCalls, function ≠ [] ∧ Identifier function := by decide

theorem inCode_joined (exhausted : ∀ function ∈ askingCalls, Exhausted (.call function) a) (b : Text) :
    inCode (a ++ ';' :: b) = inCode a ∪ inCode b := by
  refine NameSet.ext fun name => ?_
  rw [NameSet.mem_union, mem_inCode, mem_inCode, mem_inCode]
  simp only [← exists_or, ← and_or_left]
  refine exists_congr fun function => and_congr_right fun mem => ?_
  obtain ⟨nonempty, identifier⟩ := askingCalls_identifier function mem
  rw [filterMap_calls_joined (exhausted function mem) nonempty identifier fun _ _ _ => rfl, List.mem_append]

end Permission

namespace Contract

theorem literals_joined {function : Text} (exhausted : Exhausted (.call function) a) (nonempty : function ≠ [])
    (identifier : Identifier function) (pick : List Text → Option Text) (b : Text) :
    literals pick function (a ++ ';' :: b) = literals pick function a ++ literals pick function b :=
  filterMap_calls_joined exhausted nonempty identifier (fun _ _ _ => rfl) b

theorem branchLabels_joined (unbroken : Unbroken (lit "case") a) (b : Text) :
    branchLabels (a ++ ';' :: b) = branchLabels a ++ branchLabels b := by
  rw [branchLabels, unbroken.labels_joined (by decide) (by decide), List.map_append, List.map_map]
  rfl

theorem requests_joined (sends : Exhausted (.call (lit "sendToServer")) a)
    (updates : Exhausted (.call (lit "requestUpdate")) a) (b : Text) :
    (Client.ofText (a ++ ';' :: b)).requests = (Client.ofText a).requests ∪ (Client.ofText b).requests := by
  refine NameSet.ext fun name => ?_
  simp only [Client.ofText, literals_joined sends (by decide) (by decide),
    literals_joined updates (by decide) (by decide), List.filter_append, List.map_append, NameSet.mem_ofList,
    NameSet.mem_union, List.mem_append]
  exact or_or_or_comm

theorem handled_joined (unbroken : Unbroken (lit "case") a) (b : Text) :
    (Client.ofText (a ++ ';' :: b)).handled = (Client.ofText a).handled ∪ (Client.ofText b).handled ∧
      (Server.ofText (a ++ ';' :: b)).handled = (Server.ofText a).handled ∪ (Server.ofText b).handled := by
  simp only [Client.ofText, Server.ofText, branchLabels_joined unbroken, List.filter_append, NameSet.ofList_append,
    and_self]

theorem responses_joined (sends : Exhausted (.call (lit "sendData")) a) (b : Text) :
    (Server.ofText (a ++ ';' :: b)).responses = (Server.ofText a).responses ∪ (Server.ofText b).responses := by
  simp only [Server.ofText, literals_joined sends (by decide) (by decide), List.filter_append,
    NameSet.ofList_append]

end Contract

/-- The calls and the labels of joined texts are those of the first, then those of the second at their places, when the
    search goes through the first. So the names that are read of joined texts are those that are read of either. -/
theorem joined_union (a b : Text) :
    (∀ marker : Marker, marker.name ≠ [] → Identifier marker.name → Exhausted marker a →
      blocks marker (a ++ ';' :: b) = blocks marker a ++ (blocks marker b).map (Block.shift (a.byteSize + 1))) ∧
    (∀ keyword, keyword ≠ [] → Identifier keyword → Unbroken keyword a →
      labels keyword (a ++ ';' :: b) =
        labels keyword a ++ (labels keyword b).map (Literal.shift (a.byteSize + 1))) ∧
    ((∀ function ∈ Permission.askingCalls, Exhausted (.call function) a) →
      Permission.inCode (a ++ ';' :: b) = Permission.inCode a ∪ Permission.inCode b) ∧
    (Exhausted (.call (lit "sendToServer")) a → Exhausted (.call (lit "requestUpdate")) a →
      (Contract.Client.ofText (a ++ ';' :: b)).requests =
        (Contract.Client.ofText a).requests ∪ (Contract.Client.ofText b).requests) ∧
    (Unbroken (lit "case") a →
      (Contract.Client.ofText (a ++ ';' :: b)).handled =
        (Contract.Client.ofText a).handled ∪ (Contract.Client.ofText b).handled ∧
      (Contract.Server.ofText (a ++ ';' :: b)).handled =
        (Contract.Server.ofText a).handled ∪ (Contract.Server.ofText b).handled) ∧
    (Exhausted (.call (lit "sendData")) a →
      (Contract.Server.ofText (a ++ ';' :: b)).responses =
        (Contract.Server.ofText a).responses ∪ (Contract.Server.ofText b).responses) :=
  ⟨fun _ nonempty identifier exhausted => exhausted.blocks_joined nonempty identifier b,
    fun _ nonempty identifier unbroken => unbroken.labels_joined nonempty identifier b,
    fun exhausted => Permission.inCode_joined exhausted b,
    fun sends updates => Contract.requests_joined sends updates b,
    fun unbroken => Contract.handled_joined unbroken b,
    fun sends => Contract.responses_joined sends b⟩

/-- Sources with every form. The name at the end of the first is not called by the parenthesis that the second begins
    with, and a call that the second does not close takes nothing from the first. -/
theorem joined_union_forms : ∃ a b : Text,
    a = lit "hasPermission(\"a\") sendToServer(c, \"get_b\") requestUpdate(\"c\") case \"d\":sendData(p,\"e\")permission" ∧
    b = lit "(\"f\") permission(\"g\") sendToServer(c,\"get_k\") case \"get_h\": sendData(p, \"i\" case \"j" ∧
    (lit "permission" ≠ [] ∧ Identifier (lit "permission") ∧ lit "case" ≠ [] ∧ Identifier (lit "case")) ∧
    (∀ function ∈ Permission.askingCalls, Exhausted (.call function) a) ∧
    Exhausted (.call (lit "sendToServer")) a ∧ Exhausted (.call (lit "requestUpdate")) a ∧
    Exhausted (.call (lit "sendData")) a ∧ Unbroken (lit "case") a ∧
    blocks (.call (lit "permission")) (a ++ ';' :: b) = blocks (.call (lit "permission")) a ++
      (blocks (.call (lit "permission")) b).map (Block.shift (a.byteSize + 1)) ∧
    labels (lit "case") (a ++ ';' :: b) =
      labels (lit "case") a ++ (labels (lit "case") b).map (Literal.shift (a.byteSize + 1)) ∧
    Permission.inCode (a ++ ';' :: b) = Permission.inCode a ∪ Permission.inCode b ∧
    (Contract.Client.ofText (a ++ ';' :: b)).requests =
      (Contract.Client.ofText a).requests ∪ (Contract.Client.ofText b).requests ∧
    ((Contract.Client.ofText (a ++ ';' :: b)).handled =
        (Contract.Client.ofText a).handled ∪ (Contract.Client.ofText b).handled ∧
      (Contract.Server.ofText (a ++ ';' :: b)).handled =
        (Contract.Server.ofText a).handled ∪ (Contract.Server.ofText b).handled) ∧
    (Contract.Server.ofText (a ++ ';' :: b)).responses =
      (Contract.Server.ofText a).responses ∪ (Contract.Server.ofText b).responses ∧
    (blocks (.call (lit "permission")) (a ++ ';' :: b)).map Block.text = [lit "\"g\""] ∧
    (labels (lit "case") (a ++ ';' :: b)).map Literal.value = [lit "d", lit "get_h"] ∧
    (Permission.inCode (a ++ ';' :: b)).toList = [lit "a", lit "g"] ∧
    (Contract.Client.ofText (a ++ ';' :: b)).requests.toList = [lit "get_b", lit "get_c", lit "get_k"] ∧
    (Contract.Client.ofText (a ++ ';' :: b)).handled.toList = [lit "d", lit "get_h"] ∧
    (Contract.Server.ofText (a ++ ';' :: b)).handled.toList = [lit "get_h"] ∧
    (Contract.Server.ofText (a ++ ';' :: b)).responses.toList = [lit "e"] := by
  obtain ⟨a, first⟩ : ∃ a : Text,
      a = lit "hasPermission(\"a\") sendToServer(c, \"get_b\") requestUpdate(\"c\") case \"d\":sendData(p,\"e\")permission" :=
    ⟨_, rfl⟩
  refine ⟨a, _, first, rfl, ?_⟩
  have closed : ∀ s ∈ List.tails a, s.head? = some '(' → (balanced? (.nested 1) s.tail).isSome := by
    rw [first]
    decide +kernel
  have terminated : ∀ s ∈ List.tails a, s.head?.any isBlank → s.tail.head? = some '"' →
      (readItems s.tail.tail).2.isSome := by
    rw [first]
    decide +kernel
  have exhausted : ∀ function, function ≠ [] → Identifier function → Exhausted (.call function) a :=
    fun function nonempty identifier => .of_closed nonempty identifier closed
  have word : lit "permission" ≠ [] ∧ Identifier (lit "permission") := by decide
  have keyword : lit "case" ≠ [] ∧ Identifier (lit "case") := by decide
  have asks : ∀ function ∈ Permission.askingCalls, Exhausted (.call function) a := fun function mem =>
    exhausted function (Permission.askingCalls_identifier function mem).1 (Permission.askingCalls_identifier function mem).2
  have sends := exhausted (lit "sendToServer") (by decide) (by decide)
  have updates := exhausted (lit "requestUpdate") (by decide) (by decide)
  have responds := exhausted (lit "sendData") (by decide) (by decide)
  have unbroken : Unbroken (lit "case") a := .of_terminated terminated
  obtain ⟨calls, labels, code, requests, handled, responses⟩ := joined_union a _
  refine ⟨⟨word.1, word.2, keyword⟩, asks, sends, updates, responds, unbroken,
    calls (.call (lit "permission")) word.1 word.2 (exhausted _ word.1 word.2),
    labels (lit "case") keyword.1 keyword.2 unbroken, code asks, requests sends updates, handled unbroken,
    responses responds, ?_⟩
  subst first
  refine ⟨?_, ?_, ?_, ?_, ?_, ?_, ?_⟩ <;> decide +kernel

end PluginAudit
