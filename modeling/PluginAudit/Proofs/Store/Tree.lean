import PluginAudit.Proofs.Path.Written
import PluginAudit.Store.Tree

/-!
# What a directory tree holds

A directory tree that holds some files consists of them and of the directories on the way to them. A path that is
written as names leads to one of these, or fails at a file or where nothing is (`Holds.leads_resolve`).
-/
namespace PluginAudit

/-- Files, each with the names that lead to it from the working directory. -/
abbrev NamedFiles := List (List Text × Text)

namespace NamedFiles
variable {files : NamedFiles}

/-- Files that one directory can hold: none of them is at another or below another. -/
structure Placeable (files : NamedFiles) : Prop where
  names : ∀ file ∈ files, Path.AreNames file.1
  apart : files.Pairwise fun a b => ¬ a.1 <+: b.1 ∧ ¬ b.1 <+: a.1

/-- Names that lead to a directory on the way to a file. -/
def OnWay (files : NamedFiles) (names : List Text) : Prop := ∃ file ∈ files, names <+: file.1 ∧ names ≠ file.1

instance (files : NamedFiles) : Decidable (Placeable files) :=
  decidable_of_iff ((∀ file ∈ files, Path.AreNames file.1) ∧ files.Pairwise fun a b => ¬ a.1 <+: b.1 ∧ ¬ b.1 <+: a.1)
    ⟨fun ⟨a, b⟩ => ⟨a, b⟩, fun ⟨a, b⟩ => ⟨a, b⟩⟩

instance (files : NamedFiles) (names : List Text) : Decidable (files.OnWay names) :=
  inferInstanceAs (Decidable (∃ file ∈ files, _ ∧ _))

theorem Placeable.eq_of_prefix (h : Placeable files) :
    ∀ a ∈ files, ∀ b ∈ files, a.1 <+: b.1 → a = b :=
  List.Pairwise.forall_of_forall_of_flip (fun _ _ _ => rfl) (h.apart.imp fun other below => absurd below other.1)
    (h.apart.imp fun other below => absurd below other.2)

theorem Placeable.not_prefix_of_onWay (h : Placeable files) {names : List Text} (way : files.OnWay names)
    {file : List Text × Text} (mem : file ∈ files) : ¬ file.1 <+: names := by
  obtain ⟨next, mem', ahead, ne⟩ := way
  intro behind
  obtain rfl := h.eq_of_prefix file mem next mem' (behind.trans ahead)
  exact ne (behind.eq_of_length_le ahead.length_le).symm

end NamedFiles

open NamedFiles

namespace Tree

/-- A tree that consists of some files and some directories, each at its names once. -/
structure Consists (tree : Tree) (files : NamedFiles) (directories : List Text → Prop) : Prop where
  mem_iff : ∀ names entry, (names, entry) ∈ tree.entries ↔
    (∃ text, (names, text) ∈ files ∧ entry = .file (some text)) ∨ directories names ∧ entry = .directory
  once : (tree.entries.map Prod.fst).Nodup

/-- A tree that holds some files consists of these and of the directories on the way to them. No name of a
    file can contain the null character. -/
structure Holds (tree : Tree) (files : NamedFiles) : Prop where
  consists : tree.Consists files fun names => names ≠ [] ∧ files.OnWay names
  valid : ∀ file ∈ files, ∀ name ∈ file.1, '\x00' ∉ name

/-- What names lead to in a tree that holds some files. -/
inductive Leads (files : NamedFiles) (names : List Text) : Except Obstacle Target → Prop
  | directory (way : files.OnWay names) : Leads files names (.ok (.directory (.inside names)))
  | file {text : Text} (mem : (names, text) ∈ files) : Leads files names (.ok (.file (some text)))
  | blocked {file : List Text × Text} (mem : file ∈ files) (behind : file.1 <+: names) (ne : file.1 ≠ names) :
      Leads files names (.error .notADirectory)
  | missing (ahead : ∀ file ∈ files, ¬ names <+: file.1) (behind : ∀ file ∈ files, ¬ file.1 <+: names) :
      Leads files names (.error .missing)
  | invalid {name : Text} (mem : name ∈ names) (null : '\x00' ∈ name) : Leads files names (.error .invalidPath)

section
variable {tree : Tree} {links : Nat} {names rest : List Text} {name : Text} (isName : Path.IsName name)
include isName

theorem follow_directory (found : tree.entries.lookup (names ++ [name]) = some .directory) :
    tree.follow links (.inside names) (name :: rest) = tree.follow links (.inside (names ++ [name])) rest := by
  rw [follow]
  simp [isName.nonempty, isName.ne_here, isName.ne_parent, entry?, found]

theorem follow_file {text : Option Text} (found : tree.entries.lookup (names ++ [name]) = some (.file text)) :
    tree.follow links (.inside names) (name :: rest) = if rest = [] then .ok (.file text) else .error .notADirectory := by
  rw [follow]
  simp [isName.nonempty, isName.ne_here, isName.ne_parent, entry?, found]

theorem follow_none (found : tree.entries.lookup (names ++ [name]) = none) :
    tree.follow links (.inside names) (name :: rest) = .error .missing := by
  rw [follow]
  simp [isName.nonempty, isName.ne_here, isName.ne_parent, entry?, found]

end

theorem origin_ofNames {names : List Text} (h : Path.AreNames names) (place : Place) :
    origin place (Path.ofNames names).spelling = place := by
  have relative : (Path.ofNames names).spelling.head? ≠ some '/' := by
    simpa [Path.isRooted] using h.not_isRooted
  rw [origin, if_neg relative]

section
variable {tree : Tree} {files : NamedFiles} {directories : List Text → Prop} (consists : tree.Consists files directories)
include consists

theorem Consists.lookup_eq_some_iff {names : List Text} {entry : Entry} :
    tree.entries.lookup names = some entry ↔ (names, entry) ∈ tree.entries := by
  rw [List.lookup_eq_some_iff]
  constructor
  · rintro ⟨before, after, eq, -⟩
    rw [eq]
    exact List.mem_append_cons_self
  · intro mem
    obtain ⟨before, after, eq⟩ := List.append_of_mem mem
    refine ⟨before, after, eq, fun other earlier => ?_⟩
    have once := consists.once
    rw [eq, List.map_append, List.map_cons] at once
    have ne := (List.nodup_append.mp once).2.2 other.1 (List.mem_map_of_mem earlier) names List.mem_cons_self
    exact bne_iff_ne.mpr ne.symm

theorem Consists.lookup_file {names : List Text} {text : Text} (mem : (names, text) ∈ files) :
    tree.entries.lookup names = some (.file (some text)) :=
  consists.lookup_eq_some_iff.mpr ((consists.mem_iff _ _).mpr (.inl ⟨text, mem, rfl⟩))

theorem Consists.lookup_directory {names : List Text} (found : directories names) :
    tree.entries.lookup names = some .directory :=
  consists.lookup_eq_some_iff.mpr ((consists.mem_iff _ _).mpr (.inr ⟨found, rfl⟩))

theorem Consists.lookup_none {names : List Text} (noFile : ∀ text, (names, text) ∉ files) (noDirectory : ¬ directories names) :
    tree.entries.lookup names = none := by
  rw [Option.eq_none_iff_forall_ne_some]
  intro entry found
  rcases (consists.mem_iff _ _).mp (consists.lookup_eq_some_iff.mp found) with ⟨text, mem, -⟩ | ⟨found, -⟩
  · exact noFile text mem
  · exact noDirectory found

end

section
variable {tree : Tree} {files : NamedFiles} (holds : tree.Holds files)
include holds

/-- From a directory on the way to a file, or from the working directory, names lead where they should. The
    induction goes down the names and stops at a file, or where nothing is. -/
theorem Holds.leads_follow (placeable : files.Placeable) (links : Nat) {base rest : List Text}
    (start : base = [] ∨ files.OnWay base) (nonempty : rest ≠ []) (each : ∀ name ∈ rest, Path.IsName name) :
    Leads files (base ++ rest) (tree.follow links (.inside base) rest) := by
  induction rest generalizing base with
  | nil => exact absurd rfl nonempty
  | cons name rest ih =>
    obtain ⟨isName, each⟩ := List.forall_mem_cons.mp each
    have split : base ++ name :: rest = (base ++ [name]) ++ rest := by simp
    by_cases way : files.OnWay (base ++ [name])
    · rw [follow_directory isName (holds.consists.lookup_directory ⟨by simp, way⟩), split]
      by_cases last : rest = []
      · rw [last, follow, List.append_nil]
        exact .directory way
      · exact ih (.inr way) last each
    by_cases isFile : ∃ text, (base ++ [name], text) ∈ files
    · obtain ⟨text, mem⟩ := isFile
      rw [follow_file isName (holds.consists.lookup_file mem), split]
      by_cases last : rest = []
      · rw [if_pos last, last, List.append_nil]
        exact .file mem
      · rw [if_neg last]
        exact .blocked mem (List.prefix_append _ _) fun same => last (List.self_eq_append_right.mp same)
    · have ahead : ∀ file ∈ files, ¬ base ++ [name] <+: file.1 := fun file mem ahead =>
        way ⟨file, mem, ahead, fun eq => isFile ⟨file.2, eq ▸ mem⟩⟩
      have nothing := holds.consists.lookup_none (fun text mem => isFile ⟨text, mem⟩) fun found => way found.2
      rw [follow_none isName nothing, split]
      refine .missing (fun file mem below => ahead file mem ((List.prefix_append _ _).trans below)) fun file mem behind => ?_
      -- A file on the way would be here, or be at or above the directory that the names started from.
      rcases List.prefix_or_prefix_of_prefix behind (List.prefix_append _ _) with shorter | longer
      · rcases List.prefix_concat_iff.mp shorter with eq | shorter
        · exact isFile ⟨file.2, eq ▸ mem⟩
        · rcases start with rfl | start
          · exact (placeable.names file mem).nonempty (List.prefix_nil.mp shorter)
          · exact placeable.not_prefix_of_onWay start mem shorter
      · exact ahead file mem longer

theorem Holds.leads_resolve (placeable : files.Placeable) {names : List Text} (h : Path.AreNames names) :
    Leads files names (tree.resolve (Path.ofNames names)) := by
  rw [resolve, if_neg h.spelling_ne_nil]
  by_cases null : '\x00' ∈ (Path.ofNames names).spelling
  · obtain ⟨name, mem, null'⟩ := (Path.mem_spelling_ofNames (by decide)).mp null
    rw [if_pos null]
    exact .invalid mem null'
  · rw [if_neg null, origin_ofNames h, h.splitOn_spelling]
    exact holds.leads_follow placeable linkLimit (.inl rfl) h.nonempty h.each

end

theorem below?_eq_some_iff {names path steps : List Text} :
    below? names path = some steps ↔ steps ≠ [] ∧ path = names ++ steps := by
  rw [below?]
  constructor
  · intro found
    obtain ⟨⟨ahead, ne⟩, eq⟩ := Option.ite_some_none_eq_some.mp found
    obtain ⟨rest, rfl⟩ := List.isPrefixOf_iff_prefix.mp ahead
    rw [List.drop_left] at eq
    rw [← eq]
    exact ⟨fun empty => ne (by rw [empty, List.append_nil]), rfl⟩
  · rintro ⟨nonempty, rfl⟩
    have ne : names ≠ names ++ steps := fun eq => nonempty (List.self_eq_append_right.mp eq)
    rw [if_pos ⟨List.isPrefixOf_iff_prefix.mpr (List.prefix_append _ _), ne⟩, List.drop_left]

theorem mem_filesBelow {tree : Tree} {root q : Path} {names : List Text} : q ∈ tree.filesBelow root names ↔
    ∃ steps text, steps ≠ [] ∧ (names ++ steps, .file text) ∈ tree.entries ∧ steps.foldl Path.join root = q := by
  rw [filesBelow, List.mem_filterMap]
  constructor
  · rintro ⟨⟨path, entry⟩, mem, found⟩
    cases entry with
    | directory | link => cases found
    | file text =>
      obtain ⟨steps, below, spelled⟩ := Option.map_eq_some_iff.mp found
      obtain ⟨nonempty, rfl⟩ := below?_eq_some_iff.mp below
      exact ⟨steps, text, nonempty, mem, spelled⟩
  · rintro ⟨steps, text, nonempty, mem, spelled⟩
    exact ⟨_, mem, Option.map_eq_some_iff.mpr ⟨steps, below?_eq_some_iff.mpr ⟨nonempty, rfl⟩, spelled⟩⟩

section
variable {tree : Tree} {files : NamedFiles} (holds : tree.Holds files) (placeable : files.Placeable) {names : List Text}
  (h : Path.AreNames names)
include holds placeable h

/-- A file below a directory is spelled by the names that lead to it from the working directory. -/
theorem Holds.spelled_of_mem {steps : List Text} {text : Option Text} (mem : (names ++ steps, .file text) ∈ tree.entries) :
    (∃ t, (names ++ steps, t) ∈ files) ∧ steps.foldl Path.join (Path.ofNames names) = Path.ofNames (names ++ steps) := by
  rcases (holds.consists.mem_iff _ _).mp mem with ⟨t, mem, -⟩ | ⟨-, eq⟩
  · refine ⟨⟨t, mem⟩, h.foldl_join_ofNames fun name mem' => ?_⟩
    exact (placeable.names _ mem).each name (List.mem_append_right _ mem')
  · cases eq

theorem Holds.mem_filesBelow {q : Path} : q ∈ tree.filesBelow (Path.ofNames names) names ↔
    ∃ file ∈ files, (names <+: file.1 ∧ names ≠ file.1) ∧ Path.ofNames file.1 = q := by
  rw [Tree.mem_filesBelow]
  constructor
  · rintro ⟨steps, text, nonempty, mem, rfl⟩
    obtain ⟨⟨t, mem⟩, spelled⟩ := holds.spelled_of_mem placeable h mem
    exact ⟨_, mem, ⟨List.prefix_append _ _, fun eq => nonempty (List.self_eq_append_right.mp eq)⟩, spelled.symm⟩
  · rintro ⟨⟨_, t⟩, mem, ⟨⟨steps, rfl⟩, ne⟩, rfl⟩
    have listed := (holds.consists.mem_iff _ _).mpr (.inl ⟨t, mem, rfl⟩)
    refine ⟨steps, some t, ?_, listed, (holds.spelled_of_mem placeable h listed).2⟩
    rintro rfl
    exact ne (List.append_nil _).symm

theorem Holds.nodup_filesBelow : (tree.filesBelow (Path.ofNames names) names).Nodup := by
  rw [filesBelow, List.Nodup, List.pairwise_filterMap]
  refine (List.pairwise_map.mp holds.consists.once).imp_of_mem ?_
  rintro ⟨path, entry⟩ ⟨path', entry'⟩ listed listed' ne p found q found' rfl
  cases entry with
  | directory | link => cases found
  | file text =>
    cases entry' with
    | directory | link => cases found'
    | file text' =>
      obtain ⟨steps, below, eq⟩ := Option.map_eq_some_iff.mp found
      obtain ⟨steps', below', eq'⟩ := Option.map_eq_some_iff.mp found'
      obtain ⟨-, rfl⟩ := below?_eq_some_iff.mp below
      obtain ⟨-, rfl⟩ := below?_eq_some_iff.mp below'
      obtain ⟨⟨t, mem⟩, spelled⟩ := holds.spelled_of_mem placeable h listed
      obtain ⟨⟨t', mem'⟩, spelled'⟩ := holds.spelled_of_mem placeable h listed'
      rw [← eq', spelled', spelled] at eq
      exact ne ((placeable.names _ mem).ofNames_inj (placeable.names _ mem') eq)

end

end Tree
end PluginAudit
