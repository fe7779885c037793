import PluginAudit.Text.Basic

namespace PluginAudit.Card

inductive Problem
  | invalidDocument (details : Text)
  | notAList
  | notAnObject
  | emptyId
  | invalidId (id : Text)
  | duplicateId (id : Text) (first : Nat)
  | emptyField (field : Text)
  | invalidColor (shown : Text)
  | emptyDetails
  | blankDetail
deriving DecidableEq

def Problem.message : Problem → Text
  | invalidDocument details => lit "invalid document: " ++ details
  | notAList => lit "must be a non-empty list"
  | notAnObject => lit "entry is not an object"
  | emptyId => lit "empty id"
  | invalidId id => lit "id has invalid characters: " ++ id
  | duplicateId id first =>
    lit "duplicate id: " ++ id ++ lit " (first used in #" ++ Text.ofNat first ++ lit ")"
  | emptyField field => lit "empty field " ++ field
  | invalidColor shown => lit "invalid color: " ++ shown
  | emptyDetails => lit "details must be a non-empty list"
  | blankDetail => lit "blank line in details"

end PluginAudit.Card
