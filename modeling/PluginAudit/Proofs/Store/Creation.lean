import PluginAudit.Proofs.Store.Tree
import Mathlib.Data.List.Induction
import Mathlib.Data.List.Nodup

/-!
# Making files in a directory

Files that are made in an empty directory one after the other make up a tree that holds them (`holds_made`). One
step down enters a directory or makes it (`Consists.enter?`), so the steps to a file add the directories on the way
(`Consists.enterAll?`).
-/
namespace PluginAudit

open NamedFiles

namespace Tree

section
variable {tree : Tree} {files : NamedFiles} {directories : List Text → Prop} (consists : tree.Consists files directories)
include consists

theorem Consists.congr {others : List Text → Prop} (same : ∀ names, directories names ↔ others names) :
    tree.Consists files others where
  mem_iff names entry := by rw [consists.mem_iff, same]
  once := consists.once

omit consists in
theorem entries_put {names : List Text} (nothing : tree.entries.lookup names = none) (entry : Entry) :
    (tree.put names entry).entries = tree.entries ++ [(names, entry)] := by
  rw [put, nothing]

theorem Consists.once_put {names : List Text} (nothing : tree.entries.lookup names = none) (entry : Entry) :
    ((tree.put names entry).entries.map Prod.fst).Nodup := by
  rw [entries_put nothing, List.map_append]
  refine List.nodup_append.mpr ⟨consists.once, List.nodup_singleton _, fun other mem name single => ?_⟩
  obtain ⟨found, listed, rfl⟩ := List.mem_map.mp mem
  rw [List.mem_singleton.mp single]
  have absent := List.lookup_eq_none_iff.mp nothing found listed
  exact (bne_iff_ne.mp absent).symm

theorem Consists.put_directory {names : List Text} (nothing : tree.entries.lookup names = none) :
    (tree.put names .directory).Consists files fun others => directories others ∨ others = names where
  mem_iff others entry := by
    rw [entries_put nothing, List.mem_append, consists.mem_iff, List.mem_singleton, Prod.mk.injEq, or_and_right, or_assoc]
  once := consists.once_put nothing _

theorem Consists.put_file {names : List Text} (nothing : tree.entries.lookup names = none) (text : Text) :
    (tree.put names (.file (some text))).Consists (files ++ [(names, text)]) directories where
  mem_iff others entry := by
    rw [entries_put nothing, List.mem_append, consists.mem_iff, List.mem_singleton, Prod.mk.injEq, or_right_comm]
    refine or_congr ?_ Iff.rfl
    simp only [List.mem_append, List.mem_singleton, Prod.mk.injEq, or_and_right, exists_or]
    exact or_congr Iff.rfl ⟨fun ⟨eq, kind⟩ => ⟨text, ⟨eq, rfl⟩, kind⟩, fun ⟨_, ⟨eq, same⟩, kind⟩ => ⟨eq, same ▸ kind⟩⟩
  once := consists.once_put nothing _

theorem Consists.enter? {base : List Text} {step : Text} (isName : Path.IsName step)
    (noFile : ∀ text, (base ++ [step], text) ∉ files) :
    ∃ tree', tree.enter? (.inside base) step = some (tree', .inside (base ++ [step])) ∧
      tree'.Consists files fun names => directories names ∨ names = base ++ [step] := by
  by_cases known : directories (base ++ [step])
  · refine ⟨tree, ?_, consists.congr fun names => ⟨.inl, ?_⟩⟩
    · simp only [Tree.enter?, follow_directory isName (consists.lookup_directory known), follow]
    · rintro (found | rfl)
      · exact found
      · exact known
  · have nothing := consists.lookup_none noFile known
    refine ⟨tree.put (base ++ [step]) .directory, ?_, consists.put_directory nothing⟩
    simp [Tree.enter?, follow_none isName nothing, entry?, nothing]

theorem Consists.enterAll? {base steps : List Text} (each : ∀ step ∈ steps, Path.IsName step)
    (noFile : ∀ file ∈ files, ¬ file.1 <+: base ++ steps) :
    ∃ tree', tree.enterAll? (.inside base) steps = some (tree', .inside (base ++ steps)) ∧
      tree'.Consists files fun names => directories names ∨ (base.length < names.length ∧ names <+: base ++ steps) := by
  induction steps generalizing tree base directories with
  | nil =>
    refine ⟨tree, by rw [List.append_nil]; rfl, consists.congr fun names => ⟨.inl, ?_⟩⟩
    rintro (found | ⟨longer, ahead⟩)
    · exact found
    · rw [List.append_nil] at ahead
      exact absurd ahead.length_le (Nat.not_le.mpr longer)
  | cons step steps ih =>
    obtain ⟨isName, each⟩ := List.forall_mem_cons.mp each
    have split : base ++ step :: steps = (base ++ [step]) ++ steps := by simp
    rw [split] at noFile ⊢
    have here : base ++ [step] <+: (base ++ [step]) ++ steps := List.prefix_append _ _
    have length : (base ++ [step]).length = base.length + 1 := List.length_append
    obtain ⟨tree₁, entered, consists₁⟩ := consists.enter? isName fun text mem => noFile _ mem here
    obtain ⟨tree₂, enteredAll, consists₂⟩ := ih consists₁ each noFile
    -- Of the directories on the way, the first is one name longer than the base and the others are longer.
    refine ⟨tree₂, ?_, consists₂.congr fun names => ⟨?_, ?_⟩⟩
    · rw [Tree.enterAll?, entered]
      exact enteredAll
    · rintro ((found | rfl) | ⟨longer, ahead⟩)
      · exact .inl found
      · exact .inr ⟨by omega, here⟩
      · exact .inr ⟨by omega, ahead⟩
    · rintro (found | ⟨longer, ahead⟩)
      · exact .inl (.inl found)
      · by_cases first : names.length = base.length + 1
        · have prefixed := List.prefix_of_prefix_length_le ahead here (by omega)
          exact .inl (.inr (prefixed.eq_of_length (by omega)))
        · exact .inr ⟨by omega, ahead⟩

theorem Consists.create {names : List Text} (h : Path.AreNames names) (noFile : ∀ file ∈ files, ¬ file.1 <+: names)
    (noDirectory : ¬ directories names) (text : Text) :
    (tree.create (Path.ofNames names).spelling (.file (some text))).Consists (files ++ [(names, text)])
      fun others => directories others ∨ (others ≠ [] ∧ others <+: names ∧ others ≠ names) := by
  obtain ⟨above, name, rfl⟩ := (List.eq_nil_or_concat' names).resolve_left h.nonempty
  have steps : (Text.splitOn '/' (Path.ofNames (above ++ [name])).spelling).filter (!·.isEmpty) = above ++ [name] := by
    rw [h.splitOn_spelling]
    refine List.filter_eq_self.mpr fun step mem => ?_
    simpa using (h.each step mem).nonempty
  have each : ∀ step ∈ above, Path.IsName step := fun step mem => h.each step (List.mem_append_left _ mem)
  have noFileAbove : ∀ file ∈ files, ¬ file.1 <+: [] ++ above := fun file mem behind =>
    noFile file mem (behind.trans (List.prefix_append _ _))
  have not_prefix_self : ¬ above ++ [name] <+: above := fun ahead => by
    have longer := ahead.length_le
    rw [List.length_append, List.length_singleton] at longer
    omega
  obtain ⟨tree', entered, consists'⟩ := consists.enterAll? each noFileAbove
  have nothing : tree'.entries.lookup (above ++ [name]) = none := by
    refine consists'.lookup_none (fun text mem => noFile _ mem List.prefix_rfl) ?_
    rintro (found | ⟨-, ahead⟩)
    · exact noDirectory found
    · exact not_prefix_self ahead
  have created : tree.create (Path.ofNames (above ++ [name])).spelling (.file (some text)) =
      tree'.put (above ++ [name]) (.file (some text)) := by
    simp only [Tree.create, steps, origin_ofNames h, Place.start, List.dropLast_concat, entered]
    simp
  rw [created]
  refine (consists'.put_file nothing text).congr fun others => or_congr_right (and_congr List.length_pos_iff ?_)
  constructor
  · intro ahead
    refine ⟨ahead.trans (List.prefix_append _ _), ?_⟩
    rintro rfl
    exact not_prefix_self ahead
  · rintro ⟨ahead, ne⟩
    exact (List.prefix_concat_iff.mp ahead).resolve_left ne

end

/-- The directory after files were made in it in turn. -/
def made (files : NamedFiles) : Tree :=
  files.foldl (fun tree (names, text) => tree.create (Path.ofNames names).spelling (.file (some text))) empty

theorem made_concat (files : NamedFiles) (file : List Text × Text) :
    made (files ++ [file]) = (made files).create (Path.ofNames file.1).spelling (.file (some file.2)) := by
  rw [made, List.foldl_append]
  rfl

theorem consists_made {files : NamedFiles} (placeable : files.Placeable) :
    (made files).Consists files fun names => names ≠ [] ∧ files.OnWay names := by
  induction files using List.reverseRecOn with
  | nil => exact ⟨by simp [made, empty, OnWay], List.nodup_nil⟩
  | append_singleton files file ih =>
    obtain ⟨known, -, apart⟩ := List.pairwise_append.mp placeable.apart
    have written : ∀ old ∈ files, Path.AreNames old.1 := fun old mem => placeable.names old (List.mem_append_left _ mem)
    have isNew := fun old mem => apart old mem file (List.mem_singleton_self file)
    have noDirectory : ¬ (file.1 ≠ [] ∧ OnWay files file.1) := by
      rintro ⟨-, old, mem, ahead, -⟩
      exact (isNew old mem).2 ahead
    have h : Path.AreNames file.1 := placeable.names file (by simp)
    rw [made_concat]
    refine ((ih ⟨written, known⟩).create h (fun old mem => (isNew old mem).1) noDirectory file.2).congr fun names => ?_
    rw [← and_or_left]
    simp [OnWay, or_and_right, exists_or]

/-- Files that are made in turn are in the directory, and nothing else is. -/
theorem holds_made {files : NamedFiles} (placeable : files.Placeable) (valid : ∀ file ∈ files, ∀ name ∈ file.1, '\x00' ∉ name) :
    (made files).Holds files := ⟨consists_made placeable, valid⟩

end Tree
end PluginAudit
