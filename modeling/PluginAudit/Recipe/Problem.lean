import PluginAudit.Text.Basic

/-!
# Problems of recipe documents

Ingredients are counted from zero.
-/
namespace PluginAudit.Recipe

/-- The two lists of ingredients of a recipe: what it was made of, and what it is made of now. -/
inductive Side
  | base
  | changed
deriving DecidableEq

def Side.key : Side → Text
  | base => lit "original"
  | changed => lit "modified"

inductive Problem
  | invalidDocument (details : Text)
  | notAnObject
  | noRecipes
  | emptyId
  | recipeNotAnObject
  | missingList (side : Side)
  | emptyList (side : Side)
  | ingredientNotAnObject (side : Side) (index : Nat)
  | emptyItem (side : Side) (index : Nat)
  | itemFormat (side : Side) (index : Nat) (item : Text)
  | invalidCount (side : Side) (index : Nat)
  | reasonNotString
deriving DecidableEq

def Side.quoted (side : Side) : Text := lit "'" ++ side.key ++ lit "'"

def Side.ingredient (side : Side) (index : Nat) : Text :=
  side.quoted ++ '[' :: Text.ofNat index ++ [']']

def Problem.message : Problem → Text
  | invalidDocument details => lit "invalid JSON: " ++ details
  | notAnObject => lit "top-level JSON must be an object"
  | noRecipes => lit "'recipes' must be an object"
  | emptyId => lit "recipe id must be a non-empty string"
  | recipeNotAnObject => lit "recipe must be an object"
  | missingList side => lit "missing " ++ side.quoted
  | emptyList side => side.quoted ++ lit " must be a non-empty list"
  | ingredientNotAnObject side index => side.ingredient index ++ lit " must be an object"
  | emptyItem side index => side.ingredient index ++ lit ".item must be a non-empty string"
  | itemFormat side index item =>
    side.ingredient index ++ lit ".item has unexpected format: " ++ item
  | invalidCount side index => side.ingredient index ++ lit ".count must be a positive int"
  | reasonNotString => lit "'reason' should be a string"

end PluginAudit.Recipe
