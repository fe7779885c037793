import PluginAudit.Text.Basic

/-!
# Styles

The parts of a printed report have styles. A renderer puts a style on a text: the plain one leaves
it as it is, the colored one wraps it in the escape codes of terminals.
-/
namespace PluginAudit

inductive Style
  | neutral
  | passed
  | failed
  | bullet
  | locator
  | warning
  | count
deriving DecidableEq

/-- A way to put styles on texts. -/
abbrev Renderer := Style → Text → Text

namespace Style

def code (parameters : Text) : Text := '\x1b' :: '[' :: parameters ++ ['m']

/-- The parameters of the color of a style; neutral text has none. -/
def color? : Style → Option Text
  | neutral => none
  | passed => some (lit "38;2;78;154;6")
  | failed => some (lit "91")
  | bullet => some (lit "38;2;153;153;153")
  | locator => some (lit "38;2;52;101;164")
  | warning => some (lit "38;2;245;121;0")
  | count => some (lit "97")

end Style

namespace Renderer

def plain : Renderer := fun _ t => t

/-- Makes text bold and gives it the color of its style, and ends both after it. -/
def colored : Renderer := fun style t =>
  match style.color? with
  | none => t
  | some color => Style.code (lit "1") ++ Style.code color ++ t ++ Style.code (lit "39") ++ Style.code (lit "0")

end Renderer
end PluginAudit
