import PluginAudit.Audit
import PluginAudit.Proofs.Path.Spelling
import PluginAudit.Proofs.Store.Memory

/-!
# Files in memory and the history of their texts

A path has the text that was put there last (`text?_ofList`), in whatever spelling, and is listed in the spelling in
which it was first put (`firstSpelling?_ofList`). So a memory is a map whose keys are paths up to what does not
count in their spelling (`isMap_ofList`). Each part is a law of one insertion, and from it the whole by induction on
the history.
-/
namespace PluginAudit.Memory

/-- The spelling under which a path stands first in a list of files. -/
def firstSpelling? (files : List (Path × Text)) (p : Path) : Option Path :=
  (files.find? fun file => p.same file.1).map (·.1)

/-- The text of a path that stands last in a list of files. -/
def lastText? (files : List (Path × Text)) (p : Path) : Option Text :=
  (files.reverse.find? fun file => p.same file.1).map (·.2)

section
variable {files : List (Path × Text)} {p q : Path} {text : Text}

theorem firstSpelling?_cons (file : Path × Text) (files : List (Path × Text)) (p : Path) :
    firstSpelling? (file :: files) p = if p.same file.1 then some file.1 else firstSpelling? files p := by
  rw [firstSpelling?, List.find?_cons]
  cases p.same file.1 <;> rfl

theorem firstSpelling?_concat (files : List (Path × Text)) (p : Path) (text : Text) (q : Path) :
    firstSpelling? (files ++ [(p, text)]) q = (firstSpelling? files q).or (if q.same p then some p else none) := by
  induction files with
  | nil => exact firstSpelling?_cons ..
  | cons file files ih =>
    rw [List.cons_append, firstSpelling?_cons, firstSpelling?_cons, ih]
    split <;> rfl

theorem lastText?_concat (files : List (Path × Text)) (p : Path) (text : Text) (q : Path) :
    lastText? (files ++ [(p, text)]) q = if q.same p then some text else lastText? files q := by
  rw [lastText?, List.reverse_concat, List.find?_cons]
  cases q.same p <;> rfl

theorem firstSpelling?_isSome_iff :
    (firstSpelling? files p).isSome ↔ ∃ file ∈ files, file.1.components = p.components := by
  rw [firstSpelling?, Option.isSome_map, List.find?_isSome]
  exact exists_congr fun file => and_congr_right fun _ => Path.same_iff.trans eq_comm

theorem lastText?_isSome_iff : (lastText? files p).isSome ↔ ∃ file ∈ files, file.1.components = p.components := by
  rw [lastText?, Option.isSome_map, List.find?_isSome]
  exact exists_congr fun file => and_congr List.mem_reverse (Path.same_iff.trans eq_comm)

theorem components_of_firstSpelling? (first : firstSpelling? files p = some q) : q.components = p.components := by
  obtain ⟨file, found, rfl⟩ := Option.map_eq_some_iff.mp first
  have same := List.find?_some found
  exact (Path.same_iff.mp same).symm

theorem firstSpelling?_congr (same : p.components = q.components) :
    firstSpelling? files p = firstSpelling? files q := by
  simp only [firstSpelling?, Path.same, same]

theorem text?_insert (m : Memory) (p : Path) (text : Text) (q : Path) :
    (m.insert p text).text? q = if q.same p then some text else m.text? q := by
  simp only [text?, insert]
  fun_induction insertInto p text m.files with
  | case1 => cases found : q.same p <;> simp [found]
  | case2 r old files same =>
    have alike : q.same r = q.same p := by rw [Path.same, Path.same, Path.same_iff.mp same]
    rw [List.find?_cons, List.find?_cons, alike]
    cases q.same p <;> rfl
  | case3 r old files other before =>
    rw [List.find?_cons]
    cases q.same p <;> rfl
  | case4 r old files other notBefore ih =>
    rw [List.find?_cons, List.find?_cons]
    cases here : q.same r with
    | true =>
      have different : ¬ q.same p := fun same =>
        other (Path.same_iff.mpr ((Path.same_iff.mp same).symm.trans (Path.same_iff.mp here)))
      rw [if_neg different]
    | false => exact ih

theorem firstSpelling?_insertInto (ordered : Ordered files) (p : Path) (text : Text) (q : Path) :
    firstSpelling? (insertInto p text files) q = (firstSpelling? files q).or (if q.same p then some p else none) := by
  fun_induction insertInto p text files with
  | case1 => exact firstSpelling?_cons ..
  | case2 r old files same =>
    have alike : q.same p = q.same r := by rw [Path.same, Path.same, Path.same_iff.mp same]
    rw [firstSpelling?_cons, firstSpelling?_cons, alike]
    cases q.same r <;> simp
  | case3 r old files other before =>
    rw [firstSpelling?_cons]
    split
    next same =>
      -- the path comes before all files, so none of them is at it
      have later : ∀ file ∈ (r, old) :: files, p.comesBefore file.1 := by
        refine List.forall_mem_cons.mpr ⟨before, fun file mem => ?_⟩
        exact Path.comesBefore_trans before (List.rel_of_pairwise_cons ordered mem)
      have new : firstSpelling? ((r, old) :: files) q = none := by
        rw [← Option.not_isSome_iff_eq_none, firstSpelling?_isSome_iff]
        rintro ⟨file, mem, eq⟩
        exact Path.ne_of_comesBefore (later file mem) ((eq.trans (Path.same_iff.mp same)).symm)
      rw [new]
      rfl
    next => exact (Option.or_none ..).symm
  | case4 r old files other notBefore ih =>
    rw [firstSpelling?_cons, firstSpelling?_cons, ih ordered.of_cons]
    split <;> rfl

/-- The paths of files in order are those that stand first among their spellings. -/
theorem Ordered.mem_paths_iff (ordered : Ordered files) : p ∈ files.map (·.1) ↔ firstSpelling? files p = some p := by
  constructor
  · intro mem
    obtain ⟨file, inFiles, rfl⟩ := List.mem_map.mp mem
    obtain ⟨q, first⟩ := Option.isSome_iff_exists.mp (firstSpelling?_isSome_iff.mpr ⟨file, inFiles, rfl⟩)
    obtain ⟨other, found, rfl⟩ := Option.map_eq_some_iff.mp first
    have inFiles' := List.mem_of_find?_eq_some found
    rw [first, ordered.apart.eq_of_components other inFiles' file inFiles (components_of_firstSpelling? first)]
  · intro first
    obtain ⟨file, found, rfl⟩ := Option.map_eq_some_iff.mp first
    exact List.mem_map_of_mem (List.mem_of_find?_eq_some found)

end

section
variable (puts : List (Path × Text)) (p : Path)

/-- A path has the text that was put there last. -/
theorem text?_ofList : (ofList puts).text? p = lastText? puts p := by
  induction puts using List.reverseRecOn with
  | nil => rfl
  | append_singleton puts put ih =>
    have step := text?_insert (ofList puts) put.1 put.2 p
    rw [ih, ← lastText?_concat] at step
    rw [← step, ofList, List.foldl_append]
    rfl

/-- A path is kept in the spelling in which it was first put. -/
theorem firstSpelling?_ofList : firstSpelling? (ofList puts).files p = firstSpelling? puts p := by
  induction puts using List.reverseRecOn with
  | nil => rfl
  | append_singleton puts put ih =>
    rw [ofList_concat, firstSpelling?_insertInto (ordered_ofList puts), ih, ← firstSpelling?_concat]

end

theorem exists_of_firstSpelling?_eq {files others : List (Path × Text)}
    (same : ∀ p, firstSpelling? files p = firstSpelling? others p) {file : Path × Text} (mem : file ∈ files) :
    ∃ other ∈ others, other.1.components = file.1.components := by
  rw [← firstSpelling?_isSome_iff, ← same, firstSpelling?_isSome_iff]
  exact ⟨file, mem, rfl⟩

theorem has_ofList_iff (puts : List (Path × Text)) (p : Path) :
    (ofList puts).toStore.has p ↔ ∃ put ∈ puts, p.components <+: put.1.components := by
  have within : ∀ {files others : List (Path × Text)}, (∀ q, firstSpelling? files q = firstSpelling? others q) →
      (∃ file ∈ files, p.components <+: file.1.components) → ∃ other ∈ others, p.components <+: other.1.components := by
    rintro files others same ⟨file, mem, start⟩
    obtain ⟨other, memOther, eq⟩ := exists_of_firstSpelling?_eq same mem
    exact ⟨other, memOther, eq ▸ start⟩
  simp only [toStore, List.any_eq_true, Path.startsWith, List.isPrefixOf_iff_prefix]
  exact ⟨within (firstSpelling?_ofList puts), within fun q => (firstSpelling?_ofList puts q).symm⟩

/-- Paths are compared by their components, which leave out what does not count in their spelling. -/
structure ComparedByComponents (p q : Path) : Prop where
  same : p.components = q.components ↔ Relation.EqvGen Path.Respelled p q
  before : p.comesBefore q ↔ List.Lex (fun a b => a.before b) p.components q.components
  strict : p.comesBefore q → p.components ≠ q.components ∧ ¬ q.comesBefore p
  total : p.comesBefore q ∨ p.components = q.components ∨ q.comesBefore p

theorem comparedByComponents (p q : Path) : ComparedByComponents p q where
  same := Path.components_eq_iff
  before := Path.componentsBefore_iff_lex
  strict pq := ⟨Path.ne_of_comesBefore pq, fun qp => Path.not_comesBefore_self p (Path.comesBefore_trans pq qp)⟩
  total := by
    by_cases qp : q.comesBefore p
    · exact .inr (.inr qp)
    · exact (Path.comesBefore_or_same qp).imp_right .inl

/-- A path is strictly below a root and has one of the extensions. -/
structure Listed (root : Path) (extensions : List Text) (p : Path) : Prop where
  under : root.components <+: p.components
  other : p.components ≠ root.components
  extension : ∃ ext ∈ extensions, p.extension? = some ext

theorem listed_iff {root : Path} {extensions : List Text} {p : Path} :
    (p.below root && p.hasExtension extensions) ↔ Listed root extensions p := by
  have extension : p.hasExtension extensions ↔ ∃ ext ∈ extensions, p.extension? = some ext := by
    rw [Path.hasExtension, Option.any_eq_true]
    simp only [List.contains_iff_mem]
    exact exists_congr fun ext => and_comm
  rw [Path.below, Path.startsWith, Bool.and_eq_true, Bool.and_eq_true, List.isPrefixOf_iff_prefix, Bool.not_eq_true',
    ← Bool.not_eq_true, Path.same_iff, extension]
  constructor
  · rintro ⟨⟨under, other⟩, extension⟩
    exact ⟨under, other, extension⟩
  · exact fun listed => ⟨⟨listed.under, listed.other⟩, listed.extension⟩

theorem Listed.congr {root : Path} {extensions : List Text} {p q : Path} (listed : Listed root extensions p)
    (same : p.components = q.components) : Listed root extensions q := by
  refine ⟨same ▸ listed.under, same ▸ listed.other, ?_⟩
  have extension : p.extension? = q.extension? := by rw [Path.extension?, Path.fileName?, same]; rfl
  exact extension ▸ listed.extension

/-- A store is the map from paths to the texts that were put at them last. -/
structure IsMap (puts : List (Path × Text)) (s : Store) : Prop where
  read : ∀ p, s.read p = (lastText? puts p).elim (.error .notFound) .ok
  readable : ∀ p, (∃ text, s.read p = .ok text) ↔ ∃ put ∈ puts, put.1.components = p.components
  has : ∀ p, s.has p ↔ ∃ put ∈ puts, p.components <+: put.1.components
  ascending : ∀ root extensions, (s.walk root extensions).Pairwise fun p q => p.comesBefore q
  walk : ∀ root extensions p, p ∈ s.walk root extensions ↔ firstSpelling? puts p = some p ∧ Listed root extensions p
  covered : ∀ root extensions, ∀ put ∈ puts, Listed root extensions put.1 →
    ∃ p ∈ s.walk root extensions, p.components = put.1.components
  walked : ∀ root extensions, ∀ p ∈ s.walk root extensions, ∃ text, s.read p = .ok text

theorem mem_walk_ofList_iff (puts : List (Path × Text)) (root : Path) (extensions : List Text) (p : Path) :
    p ∈ (ofList puts).toStore.walk root extensions ↔ firstSpelling? puts p = some p ∧ Listed root extensions p := by
  simp only [toStore]
  rw [List.mem_filter, (ordered_ofList puts).mem_paths_iff, firstSpelling?_ofList, listed_iff]

theorem readable_ofList_iff (puts : List (Path × Text)) (p : Path) :
    (∃ text, (ofList puts).toStore.read p = .ok text) ↔ ∃ put ∈ puts, put.1.components = p.components := by
  rw [← lastText?_isSome_iff, ← text?_ofList]
  simp only [toStore]
  cases (ofList puts).text? p <;> simp

theorem isMap_ofList (puts : List (Path × Text)) : IsMap puts (ofList puts).toStore where
  read p := by rw [← text?_ofList]; rfl
  readable := readable_ofList_iff puts
  has := has_ofList_iff puts
  ascending root extensions := by
    have ordered : (ofList puts).files.Pairwise fun a b => a.1.comesBefore b.1 := ordered_ofList puts
    exact (List.pairwise_map.mpr ordered).filter _
  walk := mem_walk_ofList_iff puts
  covered root extensions put mem listed := by
    obtain ⟨p, first⟩ := Option.isSome_iff_exists.mp (firstSpelling?_isSome_iff.mpr ⟨put, mem, rfl⟩)
    have same := components_of_firstSpelling? first
    refine ⟨p, (mem_walk_ofList_iff ..).mpr ⟨?_, listed.congr same.symm⟩, same⟩
    rw [firstSpelling?_congr same, first]
  walked root extensions p mem := by
    have first := ((mem_walk_ofList_iff ..).mp mem).1
    exact (readable_ofList_iff puts p).mpr (firstSpelling?_isSome_iff.mp (Option.isSome_of_eq_some first))

/-- Files at different paths make up one memory, in whatever order they are put. -/
theorem ofList_eq_of_perm {puts others : List (Path × Text)} (apart : Apart puts) (perm : others.Perm puts) :
    ofList others = ofList puts := by
  have apart' : Apart others := (perm.pairwise_iff fun different => Ne.symm different).mpr apart
  have same : (ofList others).files.Perm (ofList puts).files :=
    (ofList_perm apart').trans (perm.trans (ofList_perm apart).symm)
  have files : (ofList others).files = (ofList puts).files := by
    refine List.Perm.eq_of_pairwise (fun a b _ _ ab ba => ?_) (ordered_ofList others) (ordered_ofList puts) same
    exact absurd (Path.comesBefore_trans ab ba) (Path.not_comesBefore_self _)
  exact congrArg Memory.mk files

/-- Stores that answer alike whatever is asked of them. -/
structure SameAnswers (s s' : Store) : Prop where
  read : ∀ p, s.read p = s'.read p
  has : ∀ p, s.has p = s'.has p
  walk : ∀ root extensions, s.walk root extensions = s'.walk root extensions
  required : ∀ root, Permission.inSources s root = Permission.inSources s' root
  report : ∀ layout, audit s layout = audit s' layout

/-- A memory is a map up to the spelling of paths, which does not depend on the order of texts at different
    paths. -/
theorem map_up_to_spelling (puts : List (Path × Text)) :
    (∀ p q, ComparedByComponents p q) ∧
    IsMap puts (ofList puts).toStore ∧
    (Apart puts → ∀ others : List (Path × Text), others.Perm puts →
      SameAnswers (ofList others).toStore (ofList puts).toStore) := by
  refine ⟨comparedByComponents, isMap_ofList puts, fun apart others perm => ?_⟩
  rw [ofList_eq_of_perm apart perm]
  exact ⟨fun _ => rfl, fun _ => rfl, fun _ _ => rfl, fun _ => rfl, fun _ => rfl⟩

def samplePuts : List (Path × Text) := [(⟨lit "a//x.java"⟩, lit "1"), (⟨lit "b"⟩, lit "2")]

theorem map_up_to_spelling_sample :
    (ofList (samplePuts ++ [(⟨lit "a/./x.java/"⟩, lit "3")])).toStore.read ⟨lit "a/x.java"⟩ = .ok (lit "3") ∧
    (∃ p ∈ (ofList samplePuts).toStore.walk ⟨lit "a/"⟩ [lit "java"], p.components = Path.components ⟨lit "a/x.java"⟩) ∧
    SameAnswers (ofList samplePuts.reverse).toStore (ofList samplePuts).toStore := by
  have last : lastText? (samplePuts ++ [(⟨lit "a/./x.java/"⟩, lit "3")]) ⟨lit "a/x.java"⟩ = some (lit "3") := by
    decide +kernel
  have read := (map_up_to_spelling (samplePuts ++ [(⟨lit "a/./x.java/"⟩, lit "3")])).2.1.read ⟨lit "a/x.java"⟩
  have listed : Listed ⟨lit "a/"⟩ [lit "java"] ⟨lit "a//x.java"⟩ := listed_iff.mp (by decide +kernel)
  have apart : Apart samplePuts := by
    show List.Pairwise (fun a b => a.1.components ≠ b.1.components) samplePuts
    decide +kernel
  refine ⟨by rw [read, last]; rfl, ?_, (map_up_to_spelling samplePuts).2.2 apart _ samplePuts.reverse_perm⟩
  exact (map_up_to_spelling samplePuts).2.1.covered _ _ _ List.mem_cons_self listed

end PluginAudit.Memory
