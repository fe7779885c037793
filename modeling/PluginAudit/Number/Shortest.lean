import PluginAudit.Number.Binary64

/-!
# Shortest decimals

The shortest decimal of a binary number has the fewest digits among those that round to it, and is
the nearest of these. The search goes from coarse to fine powers of ten.
-/
namespace PluginAudit

/-- The number `digits · 10 ^ exponent`. -/
structure Decimal where
  digits : Nat
  exponent : Int
deriving DecidableEq

namespace Magnitude

/-- A number and the ends of the interval that rounds to it, all in quarters of its last place. The
    gap below a power of two is half as wide, except among the smallest numbers. -/
def interval (a : Magnitude) : Nat × Nat × Nat :=
  let m := 4 * a.significand
  let low := if a.significand = twoTo 52 ∧ leastExponent < a.exponent then m - 1 else m - 2
  (low, m, m + 2)

/-- The multiple of `10 ^ place` next to a number that rounds to it, the nearer of two; from halfway
    the even one. The ends of the interval belong to it when the significand is even. -/
def multipleAt? (a : Magnitude) (place : Int) : Option Decimal :=
  let (low, middle, high) := a.interval
  let (n, d) := shift 1 1 (a.exponent - 2)
  let (n, d) := if 0 ≤ place then (n, d * tenTo place.toNat) else (n * tenTo (-place).toNat, d)
  let inside (x : Nat) : Bool :=
    if a.significand % 2 = 0 then low * n ≤ x * d && x * d ≤ high * n
    else low * n < x * d && x * d < high * n
  let below := middle * n / d
  let above := below + 1
  match inside below, inside above with
  | false, false => none
  | true, false => some ⟨below, place⟩
  | false, true => some ⟨above, place⟩
  | true, true => some ⟨roundDiv (middle * n) d, place⟩

/-- The finest power of ten that a shortest decimal can need. -/
def finestPlace : Int := -330

def shortest (a : Magnitude) : Decimal :=
  ((List.range 640).findSome? fun (n : Nat) => a.multipleAt? (309 - n)).getD ⟨0, finestPlace⟩

end Magnitude
end PluginAudit
