import PluginAudit.Code.Call
import PluginAudit.Code.Literal
import PluginAudit.NameSet
import PluginAudit.Store

/-!
# Required permissions

A permission is required by the command catalog or by plugin code. What is required and not declared
is missing; what is declared and not required is no matter.
-/
namespace PluginAudit.Permission

def askingCalls : List Text := [lit "hasPermission", lit "setPermission", lit "permission"]

def sourceExtensions : List Text := [lit "java", lit "kt"]

/-- The permission that an argument list asks for: the value of its only argument, without white
    space around it. -/
def asked? (arguments : List Text) : Option Text :=
  match arguments with
  | [argument] =>
    ((Code.single? argument).map fun l => Text.trim l.value).filter (!·.isEmpty)
  | _ => none

def inCode (t : Text) : NameSet :=
  .ofList <| askingCalls.flatMap fun function =>
    (Code.calls (.call function) t).filterMap fun (_, arguments) => asked? arguments

/-- The permissions that the sources below a path ask for. Those that cannot be read are left
    out. -/
def inSources (store : Store) (root : Path) : NameSet :=
  .ofList <| ((store.walk root sourceExtensions).filterMap store.read?).flatMap (inCode · |>.toList)

structure Universe where
  declared : NameSet
  catalog : NameSet
  code : NameSet

namespace Universe

def required (u : Universe) : NameSet := u.catalog ∪ u.code

def missing (u : Universe) : NameSet := u.required \ u.declared

/-- One error that lists all missing permissions, if there are any. -/
def findings (u : Universe) (artifact : Text) : List Finding :=
  if u.missing.isEmpty then []
  else [.error (.artifact artifact) (.permission (.missing u.missing.toList))]

end Universe
end PluginAudit.Permission
