import PluginAudit.Proofs.Path.Order
import PluginAudit.Store.Memory
import Mathlib.Data.List.Induction

/-!
# What files in memory hold

Files in memory are in the order of their paths (`ordered_ofList`). Files at different paths are all there, in
whatever order they were put (`ofList_perm`), and each is read with its text (`text?_eq_some_iff`).
-/
namespace PluginAudit.Memory

/-- Files in the order of their paths. -/
def Ordered (files : List (Path × Text)) : Prop := files.Pairwise fun a b => a.1.comesBefore b.1

/-- Files of which no two are at one path. -/
def Apart (files : List (Path × Text)) : Prop := files.Pairwise fun a b => a.1.components ≠ b.1.components

theorem Ordered.apart {files : List (Path × Text)} (ordered : Ordered files) : Apart files :=
  ordered.imp Path.ne_of_comesBefore

theorem Apart.eq_of_components {files : List (Path × Text)} (apart : Apart files) :
    ∀ a ∈ files, ∀ b ∈ files, a.1.components = b.1.components → a = b :=
  List.Pairwise.forall_of_forall_of_flip (fun _ _ _ => rfl) (apart.imp fun other same => absurd same other)
    (apart.imp fun other same => absurd same.symm other)

section
variable {p : Path} {text : Text} {files : List (Path × Text)}

theorem path_of_mem_insertInto {file : Path × Text} (mem : file ∈ insertInto p text files) :
    file.1 = p ∨ ∃ old ∈ files, old.1 = file.1 := by
  fun_induction insertInto p text files with
  | case1 => exact .inl (congrArg _ (List.mem_singleton.mp mem))
  | case2 q old files same =>
    rcases List.mem_cons.mp mem with rfl | mem
    · exact .inr ⟨_, List.mem_cons_self, rfl⟩
    · exact .inr ⟨file, List.mem_cons_of_mem _ mem, rfl⟩
  | case3 q old files other before =>
    rcases List.mem_cons.mp mem with rfl | mem
    · exact .inl rfl
    · exact .inr ⟨file, mem, rfl⟩
  | case4 q old files other notBefore ih =>
    rcases List.mem_cons.mp mem with rfl | mem
    · exact .inr ⟨_, List.mem_cons_self, rfl⟩
    · exact (ih mem).imp_right fun ⟨old, mem, eq⟩ => ⟨old, List.mem_cons_of_mem _ mem, eq⟩

theorem Ordered.insertInto (ordered : Ordered files) : Ordered (insertInto p text files) := by
  fun_induction Memory.insertInto p text files with
  | case1 => exact List.pairwise_singleton _ _
  | case2 q old files same => exact List.pairwise_cons.mpr (List.pairwise_cons.mp ordered)
  | case3 q old files other before =>
    refine List.pairwise_cons.mpr ⟨fun file mem => ?_, ordered⟩
    rcases List.mem_cons.mp mem with rfl | mem
    · exact before
    · exact Path.comesBefore_trans before (List.rel_of_pairwise_cons ordered mem)
  | case4 q old files other notBefore ih =>
    refine List.pairwise_cons.mpr ⟨fun file mem => ?_, ih ordered.of_cons⟩
    rcases path_of_mem_insertInto mem with eq | ⟨known, mem, eq⟩
    · rw [eq]
      exact (Path.comesBefore_or_same notBefore).resolve_right fun same => other (Path.same_iff.mpr same.symm)
    · rw [← eq]
      exact List.rel_of_pairwise_cons ordered mem

theorem insertInto_perm (new : ∀ file ∈ files, file.1.components ≠ p.components) : (insertInto p text files).Perm ((p, text) :: files) := by
  fun_induction insertInto p text files with
  | case1 => exact .refl _
  | case2 q old files same => exact absurd (Path.same_iff.mp same).symm (new _ List.mem_cons_self)
  | case3 q old files other before => exact .refl _
  | case4 q old files other notBefore ih =>
    exact ((ih (List.forall_mem_cons.mp new).2).cons _).trans (.swap _ _ _)

end

theorem ofList_concat (files : List (Path × Text)) (file : Path × Text) :
    (ofList (files ++ [file])).files = insertInto file.1 file.2 (ofList files).files := by
  rw [ofList, List.foldl_append]
  rfl

theorem ordered_ofList (files : List (Path × Text)) : Ordered (ofList files).files := by
  induction files using List.reverseRecOn with
  | nil => exact List.Pairwise.nil
  | append_singleton files file ih =>
    rw [ofList_concat]
    exact ih.insertInto

theorem ofList_perm {files : List (Path × Text)} (apart : Apart files) : (ofList files).files.Perm files := by
  induction files using List.reverseRecOn with
  | nil => exact .refl _
  | append_singleton files file ih =>
    obtain ⟨apart, -, new⟩ := List.pairwise_append.mp apart
    rw [ofList_concat]
    have known := ih apart
    refine (insertInto_perm fun old mem => new old (known.mem_iff.mp mem) file (List.mem_singleton_self file)).trans ?_
    exact (known.cons _).trans (List.perm_append_singleton _ _).symm

theorem text?_eq_some_iff {m : Memory} (apart : Apart m.files) {p : Path} {text : Text} :
    m.text? p = some text ↔ ∃ q, (q, text) ∈ m.files ∧ p.components = q.components := by
  rw [text?, Option.map_eq_some_iff]
  constructor
  · rintro ⟨file, found, rfl⟩
    have same := List.find?_some found
    exact ⟨file.1, List.mem_of_find?_eq_some found, Path.same_iff.mp same⟩
  · rintro ⟨q, mem, same⟩
    have isSome : (m.files.find? fun file => p.same file.1).isSome :=
      List.find?_isSome.mpr ⟨(q, text), mem, Path.same_iff.mpr same⟩
    obtain ⟨file, found⟩ := Option.isSome_iff_exists.mp isSome
    have sameFile := List.find?_some found
    refine ⟨file, found, congrArg Prod.snd (apart.eq_of_components file ?_ (q, text) mem ?_)⟩
    · exact List.mem_of_find?_eq_some found
    · exact (Path.same_iff.mp sameFile).symm.trans same

end PluginAudit.Memory
