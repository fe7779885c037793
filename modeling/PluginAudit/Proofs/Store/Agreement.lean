import PluginAudit.Audit
import PluginAudit.Proofs.Store.Memory
import PluginAudit.Proofs.Store.Tree

/-!
# Memory in place of a directory

When paths are written as names, files in memory answer as a directory that holds them does (`has_eq`, `walk_eq`,
`read_eq`). To be read alike, a path must be no directory and not below a file, where the two fail for other
reasons, and contain no null character, which the directory rejects.
-/
namespace PluginAudit

namespace NamedFiles
variable {files : NamedFiles} {tree : Tree} {names : List Text}

/-- The files in memory, put there in turn. -/
def memory (files : NamedFiles) : Memory := .ofList (files.map fun (names, text) => (Path.ofNames names, text))

/-- Names at which a file is or could be put: no directory is there, and no file on the way. -/
structure Fits (files : NamedFiles) (names : List Text) : Prop where
  notDirectory : ¬ files.OnWay names
  notBelow : ∀ file ∈ files, file.1 <+: names → file.1 = names

instance (files : NamedFiles) (names : List Text) : Decidable (files.Fits names) :=
  decidable_of_iff (¬ files.OnWay names ∧ ∀ file ∈ files, file.1 <+: names → file.1 = names)
    ⟨fun ⟨a, b⟩ => ⟨a, b⟩, fun ⟨a, b⟩ => ⟨a, b⟩⟩

section
variable (placeable : files.Placeable)
include placeable

theorem Placeable.memory_perm : files.memory.files.Perm (files.map fun (names, text) => (Path.ofNames names, text)) := by
  refine Memory.ofList_perm (List.pairwise_map.mpr (placeable.apart.imp_of_mem ?_))
  intro a b ha hb apart same
  have eq := ((placeable.names a ha).same_iff (placeable.names b hb)).mp (Path.same_iff.mpr same)
  exact apart.1 (eq ▸ List.prefix_rfl)

theorem Placeable.mem_memory {p : Path} {text : Text} :
    (p, text) ∈ files.memory.files ↔ ∃ names, (names, text) ∈ files ∧ Path.ofNames names = p := by
  rw [placeable.memory_perm.mem_iff, List.mem_map]
  constructor
  · rintro ⟨⟨names, text⟩, mem, ⟨⟩⟩
    exact ⟨names, mem, rfl⟩
  · rintro ⟨names, mem, rfl⟩
    exact ⟨(names, text), mem, rfl⟩

theorem Placeable.exists_of_mem_walk {root p : Path} {extensions : List Text}
    (listed : p ∈ files.memory.toStore.walk root extensions) : ∃ file ∈ files, Path.ofNames file.1 = p := by
  obtain ⟨⟨p, text⟩, known, rfl⟩ := List.mem_map.mp (List.mem_of_mem_filter listed)
  obtain ⟨names, mem, spelled⟩ := placeable.mem_memory.mp known
  exact ⟨(names, text), mem, spelled⟩

theorem Placeable.fits {file : List Text × Text} (mem : file ∈ files) : Fits files file.1 where
  notDirectory way := placeable.not_prefix_of_onWay way mem List.prefix_rfl
  notBelow other mem' behind := congrArg Prod.fst (placeable.eq_of_prefix other mem' file mem behind)

variable (h : Path.AreNames names)
include h

theorem Placeable.text?_memory {text : Text} :
    files.memory.text? (Path.ofNames names) = some text ↔ (names, text) ∈ files := by
  have ordered : Memory.Ordered files.memory.files := Memory.ordered_ofList _
  rw [Memory.text?_eq_some_iff ordered.apart]
  constructor
  · rintro ⟨q, listed, same⟩
    obtain ⟨names', mem, rfl⟩ := placeable.mem_memory.mp listed
    have h' : Path.AreNames names' := placeable.names _ mem
    rwa [(h.same_iff h').mp (Path.same_iff.mpr same)]
  · intro mem
    exact ⟨_, placeable.mem_memory.mpr ⟨names, mem, rfl⟩, rfl⟩

theorem Placeable.has_memory :
    files.memory.toStore.has (Path.ofNames names) ↔ ∃ file ∈ files, names <+: file.1 := by
  simp only [Memory.toStore, List.any_eq_true, Prod.exists, placeable.mem_memory]
  constructor
  · rintro ⟨_, text, ⟨names', mem, rfl⟩, ahead⟩
    exact ⟨names', text, mem, ((placeable.names _ mem).startsWith_iff h).mp ahead⟩
  · rintro ⟨names', text, mem, ahead⟩
    exact ⟨_, text, ⟨names', mem, rfl⟩, ((placeable.names _ mem).startsWith_iff h).mpr ahead⟩

theorem Placeable.mem_below_memory {q : Path} :
    q ∈ (files.memory.files.map (·.1)).filter (·.below (Path.ofNames names)) ↔
      ∃ file ∈ files, (names <+: file.1 ∧ names ≠ file.1) ∧ Path.ofNames file.1 = q := by
  rw [List.mem_filter, List.mem_map]
  constructor
  · rintro ⟨⟨⟨p, text⟩, listed, rfl⟩, below⟩
    obtain ⟨names', mem, rfl⟩ := placeable.mem_memory.mp listed
    have h' : Path.AreNames names' := placeable.names _ mem
    exact ⟨(names', text), mem, (h'.below_iff h).mp below, rfl⟩
  · rintro ⟨⟨names', text⟩, mem, below, rfl⟩
    exact ⟨⟨_, placeable.mem_memory.mpr ⟨names', mem, rfl⟩, rfl⟩, ((placeable.names _ mem).below_iff h).mpr below⟩

end

section
variable (holds : tree.Holds files) (placeable : files.Placeable) (h : Path.AreNames names)
include holds placeable h

theorem read_eq (fits : Fits files names) (noNull : '\x00' ∉ (Path.ofNames names).spelling) :
    files.memory.toStore.read (Path.ofNames names) = tree.toStore.read (Path.ofNames names) := by
  simp only [Memory.toStore, Tree.toStore, Tree.read]
  have leads := holds.leads_resolve placeable h
  generalize tree.resolve (Path.ofNames names) = result at leads
  cases leads with
  | directory way => exact absurd way fits.notDirectory
  | file mem =>
    rw [(placeable.text?_memory h).mpr mem]
    rfl
  | blocked mem behind ne => exact absurd (fits.notBelow _ mem behind) ne
  | missing ahead behind =>
    have nothing : files.memory.text? (Path.ofNames names) = none := by
      refine Option.eq_none_iff_forall_ne_some.mpr fun text found => ?_
      exact ahead _ ((placeable.text?_memory h).mp found) List.prefix_rfl
    rw [nothing]
    rfl
  | invalid mem null => exact absurd ((Path.mem_spelling_ofNames (by decide)).mpr ⟨_, mem, null⟩) noNull

omit h in
theorem nothing_ahead {obstacle : Tree.Obstacle} (leads : Tree.Leads files names (.error obstacle)) :
    ∀ file ∈ files, ¬ names <+: file.1 := by
  intro file mem ahead
  cases leads with
  | blocked mem' behind ne =>
    have same := placeable.eq_of_prefix _ mem' _ mem (behind.trans ahead)
    exact ne (behind.eq_of_length_le (same ▸ ahead.length_le))
  | missing nothing behind => exact nothing file mem ahead
  | invalid mem' null => exact holds.valid file mem _ (ahead.mem mem') null

theorem has_eq : files.memory.toStore.has (Path.ofNames names) = tree.toStore.has (Path.ofNames names) := by
  rw [Bool.eq_iff_iff, placeable.has_memory h]
  simp only [Tree.toStore]
  have leads := holds.leads_resolve placeable h
  generalize tree.resolve (Path.ofNames names) = result at leads
  cases result with
  | ok target =>
    refine iff_of_true ?_ rfl
    cases leads with
    | directory way =>
      obtain ⟨file, mem, ahead, -⟩ := way
      exact ⟨file, mem, ahead⟩
    | file mem => exact ⟨_, mem, List.prefix_rfl⟩
  | error obstacle =>
    refine iff_of_false ?_ Bool.false_ne_true
    rintro ⟨file, mem, ahead⟩
    exact nothing_ahead holds placeable leads file mem ahead

theorem walk_eq (extensions : List Text) :
    files.memory.toStore.walk (Path.ofNames names) extensions = tree.toStore.walk (Path.ofNames names) extensions := by
  have memory : files.memory.toStore.walk (Path.ofNames names) extensions =
      ((files.memory.files.map (·.1)).filter (·.below (Path.ofNames names))).filter (·.hasExtension extensions) := by
    rw [List.filter_filter]
    exact List.filter_congr fun q _ => Bool.and_comm _ _
  have nothing : ¬ files.OnWay names → files.memory.toStore.walk (Path.ofNames names) extensions = [] := by
    intro noWay
    rw [memory, List.filter_eq_nil_iff]
    intro q mem
    obtain ⟨file, mem, below, -⟩ := (placeable.mem_below_memory h).mp mem
    exact absurd ⟨file, mem, below⟩ noWay
  simp only [Tree.toStore, Tree.walk]
  have leads := holds.leads_resolve placeable h
  generalize tree.resolve (Path.ofNames names) = result at leads
  cases result with
  | error obstacle =>
    refine nothing ?_
    rintro ⟨file, mem, ahead, -⟩
    exact nothing_ahead holds placeable leads file mem ahead
  | ok target =>
    cases leads with
    | file mem => exact nothing fun way => placeable.not_prefix_of_onWay way mem List.prefix_rfl
    | directory way =>
      -- The tree lists its entries in any order, so the files are compared up to order before they are sorted.
      have ordered : (files.memory.files.map (·.1)).Pairwise fun p q => p.comesBefore q :=
        List.pairwise_map.mpr (Memory.ordered_ofList _)
      have below := ordered.filter (·.below (Path.ofNames names))
      have distinct := below.imp fun {p q} before (eq : p = q) => Path.ne_of_comesBefore before (congrArg _ eq)
      have same : (tree.filesBelow (Path.ofNames names) names).Perm
          ((files.memory.files.map (·.1)).filter (·.below (Path.ofNames names))) := by
        refine (List.perm_ext_iff_of_nodup (holds.nodup_filesBelow placeable h) distinct).mpr fun q => ?_
        rw [holds.mem_filesBelow placeable h, placeable.mem_below_memory h]
      rw [memory]
      exact (Path.mergeSort_eq_of_perm (below.filter _) (same.filter _)).symm

end

end NamedFiles
end PluginAudit
