import PluginAudit.Recipe.Book
import Mathlib.Data.List.Basic
import Mathlib.Data.List.TakeWhile

/-!
# Judgment of recipe books

A document is told no error exactly if it follows the schema of recipe books (`IsBook`, `errors_ofJson`). Its
warnings are about items and reasons (`warnings_ofJson`). Neither depends on what else is wrong, so each recipe is
judged alone (`judged`).
-/
namespace PluginAudit

namespace Recipe
open Json

/-- A text names an item: a namespace, a colon and a path. -/
def NamesItem (t : Text) : Prop :=
  ∃ space path, t = space ++ ':' :: path ∧ space ≠ [] ∧ path ≠ [] ∧ (∀ c ∈ space, isSpaceChar c) ∧
    ∀ c ∈ path, isPathChar c

/-- An ingredient has an item, which may have any name, and a positive count below `2 ^ 63`. -/
def IsIngredient (v : Json) : Prop :=
  ∃ ingredient item n, v = .object ingredient ∧
    member? (lit "item") ingredient = some (.string item) ∧ item ≠ [] ∧
    member? (lit "count") ingredient = some (.integer n) ∧ 1 ≤ n ∧ n ≤ 0x7FFFFFFFFFFFFFFF

/-- A recipe has one of its lists of ingredients, which is not empty. -/
def HasSide (recipe : List (Text × Json)) (side : Side) : Prop :=
  ∃ ingredients, member? side.key recipe = some (.array ingredients) ∧ ingredients ≠ [] ∧
    ∀ v ∈ ingredients, IsIngredient v

/-- A value is a recipe under an id: the id is not empty, and the recipe has both lists of ingredients. -/
def IsRecipe (id : Text) (v : Json) : Prop := id ≠ [] ∧ ∃ recipe, v = .object recipe ∧ ∀ side, HasSide recipe side

/-- A document is a recipe book. -/
def IsBook (document : Json) : Prop :=
  ∃ members recipes, document = .object members ∧ member? (lit "recipes") members = some (.object recipes) ∧
    ∀ r ∈ recipes, IsRecipe r.1 r.2

/-! ## Errors -/

/-- There is no error among problems. -/
def NoErrors (found : List (Severity × Problem)) : Prop := ∀ item ∈ found, item.1 = .warning

theorem noErrors_append {a b : List (Severity × Problem)} : NoErrors (a ++ b) ↔ NoErrors a ∧ NoErrors b :=
  List.forall_mem_append

theorem noErrors_nil : NoErrors [] := List.forall_mem_nil _

theorem not_noErrors_error (p : Problem) : ¬ NoErrors [(.error, p)] := fun none =>
  absurd (none _ List.mem_cons_self) (by simp)

section
variable {side : Side} {index : Nat} {ingredient recipe : List (Text × Json)}

theorem noErrors_itemProblems : NoErrors (itemProblems side index ingredient) ↔
    ∃ item, member? (lit "item") ingredient = some (.string item) ∧ item ≠ [] := by
  have named : ∀ item, (stringMember? (lit "item") ingredient).filter (!·.isEmpty) = some item ↔
      member? (lit "item") ingredient = some (.string item) ∧ item ≠ [] := by
    intro item
    simp [Option.filter_eq_some_iff, stringMember?_eq_some_iff]
  simp only [← named]
  rw [itemProblems]
  cases (stringMember? (lit "item") ingredient).filter (!·.isEmpty) with
  | none => simp [not_noErrors_error]
  | some item =>
    refine iff_of_true ?_ ⟨item, rfl⟩
    dsimp only
    split
    · exact noErrors_nil
    · exact List.forall_mem_singleton.mpr rfl

theorem isCount_iff {v : Json} : isCount v ↔ ∃ n, v = .integer n ∧ 1 ≤ n ∧ n ≤ 0x7FFFFFFFFFFFFFFF := by
  rw [isCount, Option.any_eq_true]
  simp only [integer?_eq_some_iff, Bool.and_eq_true, decide_eq_true_eq]
  refine exists_congr fun n => and_congr_right fun _ => ?_
  omega

theorem noErrors_countProblems : NoErrors (countProblems side index ingredient) ↔
    ∃ n, member? (lit "count") ingredient = some (.integer n) ∧ 1 ≤ n ∧ n ≤ 0x7FFFFFFFFFFFFFFF := by
  have counted : (member? (lit "count") ingredient).any isCount ↔
      ∃ n, member? (lit "count") ingredient = some (.integer n) ∧ 1 ≤ n ∧ n ≤ 0x7FFFFFFFFFFFFFFF := by
    rw [Option.any_eq_true]
    constructor
    · rintro ⟨v, member, count⟩
      obtain ⟨n, rfl, bounds⟩ := isCount_iff.mp count
      exact ⟨n, member, bounds⟩
    · rintro ⟨n, member, bounds⟩
      exact ⟨_, member, isCount_iff.mpr ⟨n, rfl, bounds⟩⟩
  rw [← counted, countProblems]
  split
  next count => exact iff_of_true noErrors_nil count
  next count => exact iff_of_false (not_noErrors_error _) count

theorem noErrors_ingredientProblems {v : Json} : NoErrors (ingredientProblems side index v) ↔ IsIngredient v := by
  rw [ingredientProblems, IsIngredient]
  cases found : v.object? with
  | none =>
    refine iff_of_false (not_noErrors_error _) ?_
    rintro ⟨ingredient, _, _, rfl, -⟩
    cases found
  | some ingredient =>
    obtain rfl := object?_eq_some_iff.mp found
    rw [noErrors_append, noErrors_itemProblems, noErrors_countProblems]
    constructor
    · rintro ⟨⟨item, isItem, nonempty⟩, n, isCount⟩
      exact ⟨ingredient, item, n, rfl, isItem, nonempty, isCount⟩
    · rintro ⟨_, item, n, ⟨⟩, isItem, nonempty, isCount⟩
      exact ⟨⟨item, isItem, nonempty⟩, n, isCount⟩

theorem noErrors_ingredientsProblems {ingredients : List Json} :
    NoErrors (ingredientsProblems side index ingredients) ↔ ∀ v ∈ ingredients, IsIngredient v := by
  induction ingredients generalizing index with
  | nil => simp [ingredientsProblems, noErrors_nil]
  | cons v ingredients ih =>
    rw [ingredientsProblems, noErrors_append, noErrors_ingredientProblems, ih, List.forall_mem_cons]

theorem noErrors_sideProblems : NoErrors (sideProblems side recipe) ↔ HasSide recipe side := by
  rw [sideProblems, HasSide]
  cases member? side.key recipe with
  | none => simp [not_noErrors_error]
  | some v =>
    dsimp only
    split
    next noArray =>
      refine iff_of_false (not_noErrors_error _) ?_
      rintro ⟨ingredients, ⟨⟩, -⟩
      cases noArray
    next empty =>
      refine iff_of_false (not_noErrors_error _) ?_
      rintro ⟨ingredients, ⟨⟩, nonempty, -⟩
      cases empty
      exact nonempty rfl
    next ingredients nonempty found =>
      obtain rfl := array?_eq_some_iff.mp found
      rw [noErrors_ingredientsProblems]
      constructor
      · refine fun each => ⟨ingredients, rfl, ?_, each⟩
        rintro rfl
        exact nonempty rfl
      · rintro ⟨_, ⟨⟩, -, each⟩
        exact each

theorem noErrors_reasonProblems : NoErrors (reasonProblems recipe) := by
  rw [reasonProblems]
  split
  · exact noErrors_nil
  · exact noErrors_nil
  · exact noErrors_nil
  · exact List.forall_mem_singleton.mpr rfl

theorem noErrors_problems : NoErrors (problems recipe) ↔ ∀ side, HasSide recipe side := by
  rw [problems, noErrors_append, noErrors_append, noErrors_sideProblems, noErrors_sideProblems]
  constructor
  · rintro ⟨⟨base, changed⟩, -⟩ side
    cases side with
    | base => exact base
    | changed => exact changed
  · exact fun sides => ⟨⟨sides .base, sides .changed⟩, noErrors_reasonProblems⟩

/-- A recipe has no error exactly if it follows the schema. -/
theorem noErrors_findings {artifact id : Text} {v : Json} :
    (∀ f ∈ findings artifact id v, f.isError = false) ↔ IsRecipe id v := by
  rw [findings, IsRecipe]
  split
  next empty =>
    have : id = [] := List.isEmpty_iff.mp empty
    simp [this, Finding.error, Finding.isError]
  next nonempty =>
    have : id ≠ [] := fun empty => nonempty (List.isEmpty_iff.mpr empty)
    rw [and_iff_right this]
    cases found : v.object? with
    | none =>
      refine iff_of_false (by simp [Finding.error, Finding.isError]) ?_
      rintro ⟨recipe, rfl, -⟩
      cases found
    | some recipe =>
      obtain rfl := object?_eq_some_iff.mp found
      have severities : (∀ f ∈ (problems recipe).map fun item => (⟨item.1, .artifact id, .recipe item.2⟩ : Finding),
          f.isError = false) ↔ NoErrors (problems recipe) := by
        rw [List.forall_mem_map, NoErrors]
        refine forall_congr' fun item => forall_congr' fun _ => ?_
        cases severity : item.1 <;> simp [Finding.isError]
      refine severities.trans (noErrors_problems.trans ?_)
      constructor
      · exact fun sides => ⟨recipe, rfl, sides⟩
      · rintro ⟨_, ⟨⟩, sides⟩
        exact sides

/-! ## Warnings -/

theorem isItem_iff {t : Text} : isItem t ↔ NamesItem t := by
  have colon : isSpaceChar ':' = false := by decide
  rw [isItem]
  constructor
  · intro item
    split at item
    next path rest =>
      simp only [Bool.and_eq_true, bne_iff_ne, Bool.not_eq_true', List.isEmpty_eq_false_iff] at item
      obtain ⟨⟨first, nonempty⟩, pathChars⟩ := item
      have parts : t.takeWhile isSpaceChar ++ ':' :: path = t := by rw [← rest, List.takeWhile_append_dropWhile]
      refine ⟨_, path, parts.symm, fun none => first ?_, nonempty, ?_, List.all_eq_true.mp pathChars⟩
      · rw [← parts, none]
        rfl
      · exact List.all_eq_true.mp List.all_takeWhile
    next => cases item
  · rintro ⟨space, path, rfl, named, nonempty, spaceChars, pathChars⟩
    rw [List.dropWhile_append_of_pos spaceChars, List.dropWhile_cons_of_neg (by simp [colon])]
    cases space with
    | nil => exact absurd rfl named
    | cons c space =>
      have first : c ≠ ':' := by
        rintro rfl
        rw [spaceChars ':' List.mem_cons_self] at colon
        cases colon
      simp [first, nonempty, List.all_eq_true.mpr pathChars]

instance (t : Text) : Decidable (NamesItem t) := decidable_of_iff _ isItem_iff

/-- A recipe has a reason that is neither null nor a string. -/
def HasOddReason (recipe : List (Text × Json)) : Prop :=
  ∃ v, member? (lit "reason") recipe = some v ∧ v ≠ .null ∧ ∀ t, v ≠ .string t

theorem hasOddReason_iff : HasOddReason recipe ↔ reasonProblems recipe = [(.warning, .reasonNotString)] := by
  rw [reasonProblems, HasOddReason]
  cases member? (lit "reason") recipe with
  | none => simp
  | some v => cases v <;> simp

instance (recipe : List (Text × Json)) : Decidable (HasOddReason recipe) :=
  decidable_of_iff _ hasOddReason_iff.symm

/-- The item of an ingredient, if it is not named as items are. An ingredient that is no object has no item, and neither
    has one whose item is no string or empty. -/
def oddItem? (v : Json) : Option Text :=
  (v.object?.bind (stringMember? (lit "item"))).filter fun item => item ≠ [] ∧ ¬ NamesItem item

/-- What a recipe is warned of: each item that is not named as items are, and a reason that is neither null nor a
    string. -/
def expectedWarnings (recipe : List (Text × Json)) : List Problem :=
  ([.base, .changed].flatMap fun side =>
    (((member? side.key recipe).bind array?).getD []).zipIdx.filterMap fun (v, index) =>
      (oddItem? v).map (.itemFormat side index)) ++
  if HasOddReason recipe then [.reasonNotString] else []

/-- The warnings among problems. -/
def warningsOf (found : List (Severity × Problem)) : List Problem :=
  (found.filter fun item => item.1 = .warning).map Prod.snd

theorem warningsOf_append (a b : List (Severity × Problem)) : warningsOf (a ++ b) = warningsOf a ++ warningsOf b := by
  rw [warningsOf, List.filter_append, List.map_append]
  rfl

theorem warningsOf_countProblems : warningsOf (countProblems side index ingredient) = [] := by
  rw [countProblems]
  split <;> rfl

theorem warningsOf_itemProblems : warningsOf (itemProblems side index ingredient) =
    ((oddItem? (.object ingredient)).map (.itemFormat side index)).toList := by
  rw [itemProblems, oddItem?, object?, Option.bind_some]
  cases stringMember? (lit "item") ingredient with
  | none => rfl
  | some item =>
    by_cases empty : item = []
    · simp [Option.filter_some, empty, warningsOf]
    · by_cases named : isItem item
      · simp [Option.filter_some, empty, named, isItem_iff.mp named, warningsOf]
      · simp [Option.filter_some, empty, named, isItem_iff.not.mp named, warningsOf]

theorem warningsOf_ingredientProblems {v : Json} : warningsOf (ingredientProblems side index v) =
    ((oddItem? v).map (.itemFormat side index)).toList := by
  rw [ingredientProblems]
  cases found : v.object? with
  | none => simp [oddItem?, found, warningsOf]
  | some ingredient =>
    obtain rfl := object?_eq_some_iff.mp found
    rw [warningsOf_append, warningsOf_itemProblems, warningsOf_countProblems, List.append_nil]

theorem warningsOf_ingredientsProblems {ingredients : List Json} :
    warningsOf (ingredientsProblems side index ingredients) =
      (ingredients.zipIdx index).filterMap fun (v, index) => (oddItem? v).map (.itemFormat side index) := by
  induction ingredients generalizing index with
  | nil => rfl
  | cons v ingredients ih =>
    rw [ingredientsProblems, warningsOf_append, warningsOf_ingredientProblems, ih, List.zipIdx_cons,
      List.filterMap_cons]
    dsimp only
    cases oddItem? v <;> rfl

theorem warningsOf_sideProblems : warningsOf (sideProblems side recipe) =
    (((member? side.key recipe).bind array?).getD []).zipIdx.filterMap fun (v, index) =>
      (oddItem? v).map (.itemFormat side index) := by
  rw [sideProblems]
  cases member? side.key recipe with
  | none => rfl
  | some v =>
    rw [Option.bind_some]
    dsimp only
    split
    next noArray => simp [noArray, warningsOf]
    next empty => simp [empty, warningsOf]
    next ingredients _ found => rw [found, Option.getD_some, warningsOf_ingredientsProblems]

theorem warningsOf_reasonProblems :
    warningsOf (reasonProblems recipe) = if HasOddReason recipe then [.reasonNotString] else [] := by
  split
  next odd =>
    rw [hasOddReason_iff.mp odd]
    rfl
  next plain =>
    rw [hasOddReason_iff] at plain
    rw [reasonProblems] at plain ⊢
    split <;> simp_all [warningsOf]

theorem warningsOf_problems : warningsOf (problems recipe) = expectedWarnings recipe := by
  rw [problems, warningsOf_append, warningsOf_append, warningsOf_sideProblems, warningsOf_sideProblems,
    warningsOf_reasonProblems, expectedWarnings, List.flatMap_cons, List.flatMap_singleton]

end

/-- Of recipes, those that are objects and have an id. -/
def proper (recipes : List (Text × Json)) : List (Text × List (Text × Json)) :=
  recipes.filterMap fun (id, v) => if id = [] then none else v.object?.map (id, ·)

theorem proper_eq_flatMap (recipes : List (Text × Json)) : proper recipes = recipes.flatMap fun r => proper [r] := by
  induction recipes with
  | nil => rfl
  | cons r recipes ih =>
    rw [List.flatMap_cons, ← ih]
    exact List.filterMap_append (l := [r])

theorem filter_findings (artifact id : Text) (v : Json) : (findings artifact id v).filter (!·.isError) =
    (proper [(id, v)]).flatMap fun (id, recipe) =>
      (expectedWarnings recipe).map fun problem => .warning (.artifact id) (.recipe problem) := by
  rw [findings, proper, List.filterMap_cons, List.filterMap_nil]
  split
  next empty => simp [List.isEmpty_iff.mp empty, Finding.error, Finding.isError]
  next nonempty =>
    have : id ≠ [] := fun empty => nonempty (List.isEmpty_iff.mpr empty)
    simp only [this, ↓reduceIte]
    cases v.object? with
    | none => simp [Finding.error, Finding.isError]
    | some recipe =>
      have kept : ∀ item : Severity × Problem,
          (!Finding.isError ⟨item.1, .artifact id, .recipe item.2⟩) = decide (item.1 = .warning) := by
        rintro ⟨severity, problem⟩
        cases severity <;> rfl
      simp only [Option.map_some, List.flatMap_singleton, ← warningsOf_problems, warningsOf, List.map_map,
        List.filter_map, Function.comp_def, kept]
      refine List.map_congr_left fun item mem => ?_
      rw [of_decide_eq_true (List.mem_filter.mp mem).2]
      rfl

end Recipe

namespace RecipeBook
open Json Recipe

/-- The recipes of a document, if it has any member for them. -/
def recipes? (document : Json) : Option (List (Text × Json)) :=
  document.object?.bind fun members => (member? (lit "recipes") members).bind object?

def alone (id : Text) (v : Json) : Json := .object [(lit "recipes", .object [(id, v)])]

/-- What a checked book says of its document. -/
structure Judged (artifact : Text) (document : Json) (book : RecipeBook) : Prop where
  errors : book.errors = 0 ↔ IsBook document
  warnings : book.findings.filter (!·.isError) =
    (proper ((recipes? document).getD [])).flatMap fun (id, recipe) =>
      (expectedWarnings recipe).map fun problem => .warning (.artifact id) (.recipe problem)
  apart : ∀ recipes, recipes? document = some recipes →
    book.findings = recipes.flatMap fun (id, v) => (ofJson artifact (alone id v)).findings

theorem ofJson_of_recipes {artifact : Text} {document : Json} {recipes : List (Text × Json)}
    (found : recipes? document = some recipes) : ofJson artifact document =
      ⟨recipes.length, recipes.flatMap fun (id, v) => Recipe.findings artifact id v⟩ := by
  obtain ⟨members, isObject, found⟩ := Option.bind_eq_some_iff.mp found
  rw [ofJson, isObject]
  dsimp only
  rw [found]

theorem ofJson_of_none (artifact : Text) {document : Json} (none : recipes? document = none) :
    ∃ problem, ofJson artifact document = rejected artifact problem := by
  rw [recipes?] at none
  rw [ofJson]
  cases isObject : document.object? with
  | none => exact ⟨_, rfl⟩
  | some members =>
    rw [isObject, Option.bind_some] at none
    dsimp only
    rw [none]
    exact ⟨_, rfl⟩

theorem findings_alone (artifact id : Text) (v : Json) :
    (ofJson artifact (alone id v)).findings = Recipe.findings artifact id v := by
  have found : recipes? (alone id v) = some [(id, v)] := by simp [recipes?, alone, object?, member?]
  rw [ofJson_of_recipes found, List.flatMap_singleton]

theorem isBook_iff {document : Json} :
    IsBook document ↔ ∃ recipes, recipes? document = some recipes ∧ ∀ r ∈ recipes, IsRecipe r.1 r.2 := by
  simp only [recipes?, Option.bind_eq_some_iff, object?_eq_some_iff]
  constructor
  · rintro ⟨members, recipes, rfl, member, each⟩
    exact ⟨recipes, ⟨members, rfl, _, member, rfl⟩, each⟩
  · rintro ⟨recipes, ⟨members, rfl, _, member, rfl⟩, each⟩
    exact ⟨members, recipes, rfl, member, each⟩

theorem errors_eq_zero_iff {book : RecipeBook} : book.errors = 0 ↔ ∀ f ∈ book.findings, f.isError = false := by
  simp [errors, List.countP_eq_zero]

theorem errors_ofJson (artifact : Text) (document : Json) :
    (ofJson artifact document).errors = 0 ↔ IsBook document := by
  rw [errors_eq_zero_iff, isBook_iff]
  cases found : recipes? document with
  | none =>
    obtain ⟨problem, eq⟩ := ofJson_of_none artifact found
    rw [eq]
    simp [rejected, Finding.error, Finding.isError]
  | some recipes =>
    rw [ofJson_of_recipes found]
    simp only [List.mem_flatMap, Option.some.injEq, exists_eq_left']
    constructor
    · exact fun none r listed => noErrors_findings.mp fun f mem => none f ⟨r, listed, mem⟩
    · rintro each f ⟨r, listed, mem⟩
      exact noErrors_findings.mpr (each r listed) f mem

theorem warnings_ofJson (artifact : Text) (document : Json) : (ofJson artifact document).findings.filter (!·.isError) =
    (proper ((recipes? document).getD [])).flatMap fun (id, recipe) =>
      (expectedWarnings recipe).map fun problem => .warning (.artifact id) (.recipe problem) := by
  cases found : recipes? document with
  | none =>
    obtain ⟨problem, eq⟩ := ofJson_of_none artifact found
    rw [eq]
    rfl
  | some recipes =>
    rw [ofJson_of_recipes found, Option.getD_some, proper_eq_flatMap, List.flatMap_assoc, List.filter_flatMap]
    exact List.flatMap_congr fun r _ => filter_findings artifact r.1 r.2

/-- A document without errors is one that follows the schema; warnings tell what is odd in recipes, whatever
    errors stand beside them; and a recipe is judged as if it were the only one of its book. -/
theorem judged (artifact : Text) {t : Text} {document : Json} (parsed : Json.ofText t = .ok document) :
    Judged artifact document (ofText artifact t) := by
  rw [ofText, parsed]
  refine ⟨errors_ofJson artifact document, warnings_ofJson artifact document, fun recipes found => ?_⟩
  simp only [ofJson_of_recipes found, findings_alone]

/-- A book without errors, of which an item and a reason are odd. -/
def sample : Text :=
  lit "\x7b\"recipes\":\x7b\"axe\":\x7b\"original\":[\x7b\"item\":\"Stick\",\"count\":1\x7d]," ++
  lit "\"modified\":[\x7b\"item\":\"a:b/c\",\"count\":9223372036854775807\x7d],\"reason\":1e2\x7d\x7d\x7d"

theorem judged_sample : ∃ document, Json.ofText sample = .ok document ∧ IsBook document ∧
    Judged (lit "book") document (ofText (lit "book") sample) ∧
    (ofText (lit "book") sample).findings.filter (!·.isError) =
      [.warning (.artifact (lit "axe")) (.recipe (.itemFormat .base 0 (lit "Stick"))),
       .warning (.artifact (lit "axe")) (.recipe .reasonNotString)] := by
  have read : (Json.ofText sample).toBool := by decide +kernel
  have book : (ofText (lit "book") sample).errors = 0 := by decide +kernel
  cases parsed : Json.ofText sample with
  | error fault =>
    rw [parsed] at read
    cases read
  | ok document =>
    have all := judged (lit "book") parsed
    exact ⟨document, rfl, all.errors.mp book, all, by decide +kernel⟩

end RecipeBook
end PluginAudit
