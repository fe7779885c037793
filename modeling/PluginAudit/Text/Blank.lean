import PluginAudit.Text.Basic
import PluginAudit.Text.Ranges

/-!
# White space

White space is the Unicode property `White_Space`, the same set wherever a text is trimmed or a
gap is skipped.
-/
namespace PluginAudit

namespace Text

def whiteSpace : Ranges where
  intervals :=
    [(0x9, 0xD), (0x20, 0x20), (0x85, 0x85), (0xA0, 0xA0), (0x1680, 0x1680), (0x2000, 0x200A),
     (0x2028, 0x2029), (0x202F, 0x202F), (0x205F, 0x205F), (0x3000, 0x3000)]

end Text

def isBlank (c : Char) : Bool := Text.whiteSpace.holds c.toNat

namespace Text

def trimStart (t : Text) : Text := t.dropWhile isBlank

def trimEnd (t : Text) : Text := (t.reverse.dropWhile isBlank).reverse

def trim (t : Text) : Text := trimEnd (trimStart t)

def blank (t : Text) : Bool := t.all isBlank

theorem trim_eq_nil_iff (t : Text) : trim t = [] ↔ blank t := by
  have key : ∀ s : Text, s.dropWhile isBlank = [] ↔ s.all isBlank := by
    intro s
    induction s with
    | nil => simp
    | cons c s ih => by_cases h : isBlank c <;> simp_all
  have split : t.takeWhile isBlank ++ t.dropWhile isBlank = t := List.takeWhile_append_dropWhile
  have leading : ∀ c ∈ t.takeWhile isBlank, isBlank c = true := by
    intro c mem
    simpa using List.all_takeWhile (p := isBlank) (l := t) |> List.all_eq_true.mp |> (· c mem)
  rw [trim, trimEnd, trimStart, List.reverse_eq_nil_iff, key, List.all_reverse, blank]
  conv => rhs; rw [← split, List.all_append]
  simp only [Bool.and_eq_true, List.all_eq_true, iff_and_self]
  exact fun _ => leading

end Text
end PluginAudit
