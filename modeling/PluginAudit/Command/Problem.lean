import PluginAudit.Text.Basic

namespace PluginAudit.Command

inductive Problem
  | noRecords (creation : Text)
  | arity (expected found : Nat)
  | unreadableCommand
  | commandStart (command : Text)
  | duplicateCommand (command : Text) (first : Nat)
  | emptyField (field : Text)
  | missingCategory (token : Text)
  | emptyPermission
  | invalidFlag (value : Text)
  | aliasStart (name : Text)
  | aliasIsCommand (name : Text)
  | duplicateAlias (name : Text)
  | aliasCollision (name : Text) (first : Nat)
  | exampleStart (usage : Text)
  | unrecognizedEscape (field : Text) (escape : Char)
deriving DecidableEq

def Problem.message : Problem → Text
  | noRecords creation => lit "no " ++ creation ++ lit " records found"
  | arity expected found =>
    lit "expected " ++ Text.ofNat expected ++ lit " arguments, found " ++ Text.ofNat found
  | unreadableCommand => lit "could not read the command"
  | commandStart command => lit "command must start with '/': " ++ command
  | duplicateCommand command first =>
    lit "duplicate command '" ++ command ++ lit "' (first declared in #" ++ Text.ofNat first ++ lit ")"
  | emptyField field => lit "empty " ++ field
  | missingCategory token => lit "category is not set: " ++ token
  | emptyPermission => lit "empty permission"
  | invalidFlag value => lit "requiresNation must be true or false: " ++ value
  | aliasStart name => lit "alias must start with '/': " ++ name
  | aliasIsCommand name => lit "alias is the same as the command: " ++ name
  | duplicateAlias name => lit "duplicate alias: " ++ name
  | aliasCollision name first =>
    lit "alias '" ++ name ++ lit "' collides with an existing command (#" ++ Text.ofNat first ++ lit ")"
  | exampleStart usage => lit "example must start with '/': " ++ usage
  | unrecognizedEscape field escape => lit "unrecognized escape '\\" ++ escape :: lit "' in " ++ field

end PluginAudit.Command
