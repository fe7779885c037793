import PluginAudit.Finding
import Mathlib.Tactic.Common

/-!
# What findings cite

The message of a problem is a fixed wording around numbers and texts that were found in an artifact. So it has a
line feed in it exactly if one of these texts has one (`Problem.cites_message`).
-/
namespace PluginAudit

/-- A text has a line feed in it exactly if one of the texts that it cites has one. -/
def Cites (t : Text) (cited : List Text) : Prop := '\n' ∈ t ↔ ∃ u ∈ cited, '\n' ∈ u

namespace Cites

variable {s t : Text} {cited cited' : List Text}

theorem wording (free : '\n' ∉ t) : Cites t [] := by
  simp [Cites, free]

theorem text (t : Text) : Cites t [t] := by
  simp [Cites]

theorem append (first : Cites s cited) (second : Cites t cited') : Cites (s ++ t) (cited ++ cited') := by
  unfold Cites at first second ⊢
  rw [List.mem_append, first, second]
  simp only [List.mem_append, or_and_right, exists_or]

theorem number (n : Nat) : Cites (Text.ofNat n) [] := wording (Text.not_mem_ofNat (by decide) n)

theorem bracketed (n : Nat) : Cites ('[' :: Text.ofNat n) [] := (wording (t := ['[']) (by decide)).append (number n)

theorem enumerate (ts : List Text) : Cites (Text.enumerate ts) ts := by
  have separator : Cites (lit ", ") [] := wording (by decide)
  induction ts with
  | nil => exact wording (by simp [Text.enumerate])
  | cons t ts ih =>
    cases ts with
    | nil => simpa [Text.enumerate] using text t
    | cons u us =>
      rw [Text.enumerate, List.intercalate_cons_cons]
      exact ((text t).append separator).append ih

theorem before (free : '\n' ∉ s) (t : Text) : Cites (s ++ t) [t] := (wording free).append (text t)

theorem beforeAll (free : '\n' ∉ s) (ts : List Text) : Cites (s ++ Text.enumerate ts) ts :=
  (wording free).append (enumerate ts)

end Cites

def Command.Problem.cited : Command.Problem → List Text
  | noRecords creation => [creation]
  | commandStart command | duplicateCommand command _ => [command]
  | emptyField field => [field]
  | missingCategory token => [token]
  | invalidFlag value => [value]
  | aliasStart name | aliasIsCommand name | duplicateAlias name | aliasCollision name _ => [name]
  | exampleStart usage => [usage]
  | unrecognizedEscape field escape => [[escape], field]
  | arity _ _ | unreadableCommand | emptyPermission => []

def Card.Problem.cited : Card.Problem → List Text
  | invalidDocument details => [details]
  | invalidId id | duplicateId id _ => [id]
  | emptyField field => [field]
  | invalidColor shown => [shown]
  | notAList | notAnObject | emptyId | emptyDetails | blankDetail => []

def Recipe.Problem.cited : Recipe.Problem → List Text
  | invalidDocument details => [details]
  | itemFormat _ _ item => [item]
  | _ => []

def Contract.Problem.cited : Contract.Problem → List Text
  | unhandledRequests names | unrequestedHandlers names | unhandledResponses names | unsentResponses names => names

def Permission.Problem.cited : Permission.Problem → List Text
  | missing names => names
  | noSources root => [root]
  | noSection => []

/-- The texts that a problem cites. -/
def Problem.cited : Problem → List Text
  | unreadable failure => [failure.what.lowercase, failure.details]
  | catalog problem => problem.cited
  | card problem => problem.cited
  | contract problem => problem.cited
  | permission problem => problem.cited
  | recipe problem => problem.cited

theorem Command.Problem.cites_message (p : Command.Problem) : Cites p.message p.cited := by
  cases p with
  | noRecords creation => exact (Cites.before (by decide) creation).append (.wording (by decide))
  | arity expected found =>
    exact (((Cites.wording (by decide)).append (.number expected)).append (.wording (by decide))).append (.number found)
  | unreadableCommand => exact .wording (by decide)
  | commandStart command => exact .before (by decide) command
  | duplicateCommand command first =>
    exact (((Cites.before (by decide) command).append (.wording (by decide))).append (.number first)).append
      (.wording (by decide))
  | emptyField field => exact .before (by decide) field
  | missingCategory token => exact .before (by decide) token
  | emptyPermission => exact .wording (by decide)
  | invalidFlag value => exact .before (by decide) value
  | aliasStart name => exact .before (by decide) name
  | aliasIsCommand name => exact .before (by decide) name
  | duplicateAlias name => exact .before (by decide) name
  | aliasCollision name first =>
    exact (((Cites.before (by decide) name).append (.wording (by decide))).append (.number first)).append
      (.wording (by decide))
  | exampleStart usage => exact .before (by decide) usage
  | unrecognizedEscape field escape =>
    have escaped : Cites (escape :: lit "' in ") [[escape]] := (Cites.text [escape]).append (.wording (by decide))
    exact ((Cites.wording (by decide)).append escaped).append (.text field)

theorem Card.Problem.cites_message (p : Card.Problem) : Cites p.message p.cited := by
  cases p with
  | invalidDocument details => exact .before (by decide) details
  | invalidId id => exact .before (by decide) id
  | duplicateId id first =>
    exact (((Cites.before (by decide) id).append (.wording (by decide))).append (.number first)).append
      (.wording (by decide))
  | emptyField field => exact .before (by decide) field
  | invalidColor shown => exact .before (by decide) shown
  | notAList | notAnObject | emptyId | emptyDetails | blankDetail => exact .wording (by decide)

theorem Recipe.Side.cites_ingredient (side : Recipe.Side) (index : Nat) : Cites (side.ingredient index) [] := by
  have quoted : Cites side.quoted [] := by
    cases side <;> exact .wording (by decide)
  exact (quoted.append (.bracketed index)).append (.wording (by decide))

theorem Recipe.Problem.cites_message (p : Recipe.Problem) : Cites p.message p.cited := by
  cases p with
  | invalidDocument details => exact .before (by decide) details
  | missingList side => cases side <;> exact .wording (by decide)
  | emptyList side => cases side <;> exact .wording (by decide)
  | ingredientNotAnObject side index => exact (side.cites_ingredient index).append (.wording (by decide))
  | emptyItem side index => exact (side.cites_ingredient index).append (.wording (by decide))
  | itemFormat side index item =>
    exact ((side.cites_ingredient index).append (.wording (by decide))).append (.text item)
  | invalidCount side index => exact (side.cites_ingredient index).append (.wording (by decide))
  | notAnObject | noRecipes | emptyId | recipeNotAnObject | reasonNotString => exact .wording (by decide)

theorem Contract.Problem.cites_message (p : Contract.Problem) : Cites p.message p.cited := by
  cases p with
  | unhandledRequests names => exact .beforeAll (by decide) names
  | unrequestedHandlers names => exact .beforeAll (by decide) names
  | unhandledResponses names => exact .beforeAll (by decide) names
  | unsentResponses names => exact .beforeAll (by decide) names

theorem Permission.Problem.cites_message (p : Permission.Problem) : Cites p.message p.cited := by
  cases p with
  | missing names => exact .beforeAll (by decide) names
  | noSources root => exact .before (by decide) root
  | noSection => exact .wording (by decide)

/-- A message has a line feed in it only where the problem cites one. -/
theorem Problem.cites_message (p : Problem) : Cites p.message p.cited := by
  cases p with
  | unreadable failure =>
    rw [message, ReadFailure.message]
    split
    next empty =>
      have details : failure.details = [] := by simpa using empty
      simp [Cites, cited, details]
    next => exact ((Cites.text _).append (.wording (by decide))).append (.text _)
  | catalog problem => exact problem.cites_message
  | card problem => exact problem.cites_message
  | contract problem => exact problem.cites_message
  | permission problem => exact problem.cites_message
  | recipe problem => exact problem.cites_message

end PluginAudit
