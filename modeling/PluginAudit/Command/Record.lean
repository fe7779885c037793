import PluginAudit.Code.Literal
import PluginAudit.Text.Numeral

/-!
# Command records

A command is declared by a call with nine arguments. A record holds what they say, decoded.
-/
namespace PluginAudit.Command

structure Record where
  command : Text
  displayName : Text
  shortDesc : Text
  fullDesc : Text
  category : Text
  aliases : List Text
  examples : List Text
  permission : Text
  requiresNation : Bool
deriving DecidableEq

/-- The name of a category constant without the type that qualifies it: what follows the last
    point. -/
def categoryName (category : Text) : Text := (category.reverse.takeWhile (· ≠ '.')).reverse

/-- The arguments of a declaration as they are written. -/
structure Declaration where
  command : Text
  displayName : Text
  shortDesc : Text
  fullDesc : Text
  category : Text
  aliases : Text
  examples : Text
  permission : Text
  requiresNation : Text
deriving DecidableEq

def arity : Nat := 9

namespace Declaration

def ofArguments? : List Text → Option Declaration
  | command :: displayName :: shortDesc :: fullDesc :: category :: aliases :: examples ::
      permission :: requiresNation :: _ =>
    some ⟨command, displayName, shortDesc, fullDesc, category, aliases, examples, permission,
      requiresNation⟩
  | _ => none

/-- The value of an argument that is one literal. -/
def value? (argument : Text) : Option Text := (Code.single? argument).map Code.Literal.value

/-- The value of an argument that is one literal and not blank. -/
def nonblank? (argument : Text) : Option Text := (value? argument).filter (!Text.blank ·)

def flag? (argument : Text) : Option Bool :=
  if argument = lit "true" then some true
  else if argument = lit "false" then some false
  else none

/-- The command that is declared, if it can be read and is not empty. -/
def name? (d : Declaration) : Option Text := (value? d.command).filter (!·.isEmpty)

/-- The names that a declaration claims: its command and its aliases. -/
def names (d : Declaration) : List Text := d.name?.toList ++ Code.literalValues d.aliases

/-- The permission that a declaration requires, without white space around it. -/
def permission? (d : Declaration) : Option Text := (nonblank? d.permission).map Text.trim

/-- The record of a declaration, unless one of its fields cannot be read or is blank. -/
def record? (d : Declaration) : Option Record := do
  return {
    command := ← d.name?
    displayName := ← nonblank? d.displayName
    shortDesc := ← nonblank? d.shortDesc
    fullDesc := ← nonblank? d.fullDesc
    category := d.category
    aliases := Code.literalValues d.aliases
    examples := Code.literalValues d.examples
    permission := ← nonblank? d.permission
    requiresNation := ← flag? d.requiresNation }

end Declaration
end PluginAudit.Command
