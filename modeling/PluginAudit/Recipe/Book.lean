import PluginAudit.Finding
import PluginAudit.Json.Document

/-!
# Recipe books

A recipe book is a JSON object whose member `recipes` maps recipe ids to recipes. Each is checked by
itself, in document order, and its findings name it by its id.
-/
namespace PluginAudit

namespace Recipe

def isSpaceChar (c : Char) : Bool :=
  ('a' ≤ c && c ≤ 'z') || c.isDigit || c == '_' || c == '.' || c == '-'

def isPathChar (c : Char) : Bool := isSpaceChar c || c == '/'

/-- Whether a text names an item: a namespace, a colon and a path. -/
def isItem (t : Text) : Bool :=
  match t.dropWhile isSpaceChar with
  | ':' :: path => t.head? != some ':' && !path.isEmpty && path.all isPathChar
  | _ => false

/-- Whether a value is a count: a positive integer below `2 ^ 63`. -/
def isCount (v : Json) : Bool := v.integer?.any fun n => 0 < n && n ≤ 0x7FFFFFFFFFFFFFFF

def itemProblems (side : Side) (index : Nat) (ingredient : List (Text × Json)) :
    List (Severity × Problem) :=
  match (Json.stringMember? (lit "item") ingredient).filter (!·.isEmpty) with
  | none => [(.error, .emptyItem side index)]
  | some item => if isItem item then [] else [(.warning, .itemFormat side index item)]

def countProblems (side : Side) (index : Nat) (ingredient : List (Text × Json)) :
    List (Severity × Problem) :=
  if (Json.member? (lit "count") ingredient).any isCount then [] else [(.error, .invalidCount side index)]

def ingredientProblems (side : Side) (index : Nat) (v : Json) : List (Severity × Problem) :=
  match v.object? with
  | none => [(.error, .ingredientNotAnObject side index)]
  | some ingredient => itemProblems side index ingredient ++ countProblems side index ingredient

/-- What is wrong with ingredients, the first of which has a given number. -/
def ingredientsProblems (side : Side) (index : Nat) : List Json → List (Severity × Problem)
  | [] => []
  | v :: rest => ingredientProblems side index v ++ ingredientsProblems side (index + 1) rest

def sideProblems (side : Side) (recipe : List (Text × Json)) : List (Severity × Problem) :=
  match Json.member? side.key recipe with
  | none => [(.error, .missingList side)]
  | some v =>
    match v.array? with
    | none | some [] => [(.error, .emptyList side)]
    | some ingredients => ingredientsProblems side 0 ingredients

/-- Whether a reason is given that is neither null nor a string. -/
def reasonProblems (recipe : List (Text × Json)) : List (Severity × Problem) :=
  match Json.member? (lit "reason") recipe with
  | none | some .null | some (.string _) => []
  | _ => [(.warning, .reasonNotString)]

def problems (recipe : List (Text × Json)) : List (Severity × Problem) :=
  sideProblems .base recipe ++ sideProblems .changed recipe ++ reasonProblems recipe

/-- The findings on a recipe. One without an id is a finding against the book. -/
def findings (artifact id : Text) (v : Json) : List Finding :=
  if id.isEmpty then [.error (.artifact artifact) (.recipe .emptyId)]
  else
    match v.object? with
    | none => [.error (.artifact id) (.recipe .recipeNotAnObject)]
    | some recipe =>
      (problems recipe).map fun (severity, problem) => ⟨severity, .artifact id, .recipe problem⟩

end Recipe

structure RecipeBook where
  count : Nat
  findings : List Finding
deriving DecidableEq

namespace RecipeBook

def errors (book : RecipeBook) : Nat := book.findings.countP Finding.isError

def warnings (book : RecipeBook) : Nat := book.findings.countP (!·.isError)

def rejected (artifact : Text) (problem : Recipe.Problem) : RecipeBook :=
  ⟨0, [.error (.artifact artifact) (.recipe problem)]⟩

def ofJson (artifact : Text) (document : Json) : RecipeBook :=
  match document.object? with
  | none => rejected artifact .notAnObject
  | some members =>
    match (Json.member? (lit "recipes") members).bind Json.object? with
    | none => rejected artifact .noRecipes
    | some recipes => ⟨recipes.length, recipes.flatMap fun (id, v) => Recipe.findings artifact id v⟩

def ofText (artifact t : Text) : RecipeBook :=
  match Json.ofText t with
  | .error fault => rejected artifact (.invalidDocument (fault.message t))
  | .ok document => ofJson artifact document

end RecipeBook
end PluginAudit
