/-!
# Binary floating point

Finite numbers of the 64-bit binary format: a significand of at most 53 bits and a power of two.
Operations are exact and rounded once, to the nearest number; of two equally near ones the even
significand is taken.
-/
namespace PluginAudit

def twoTo (n : Nat) : Nat := Nat.pow 2 n

def tenTo (n : Nat) : Nat := Nat.pow 10 n

/-- The number `significand · 2 ^ exponent`. -/
structure Magnitude where
  significand : Nat
  exponent : Int
deriving DecidableEq

/-- A magnitude with a sign; zero has one too. -/
structure Binary64 where
  negative : Bool
  magnitude : Magnitude
deriving DecidableEq

/-- The quotient of two whole numbers, rounded to the nearest, and to the even one from halfway. -/
def roundDiv (num den : Nat) : Nat :=
  let quotient := num / den
  let rest := num % den
  if 2 * rest < den then quotient
  else if den < 2 * rest then quotient + 1
  else quotient + quotient % 2

namespace Magnitude

/-- The least exponent. Significands below `2 ^ 52` go with it only. -/
def leastExponent : Int := -1074

def greatestExponent : Int := 971

def zero : Magnitude := ⟨0, leastExponent⟩

/-- The fraction `num / den`, multiplied by a power of two. -/
def shift (num den : Nat) (e : Int) : Nat × Nat :=
  if 0 ≤ e then (num * twoTo e.toNat, den) else (num, den * twoTo (-e).toNat)

/-- The exponent at which the significand nearest to a positive fraction has 53 bits. -/
def exponentOf (num den : Nat) : Int :=
  let estimate : Int := Int.ofNat num.log2 - Int.ofNat den.log2
  let (n, d) := shift num den (-estimate)
  if d ≤ n then estimate - 52 else estimate - 53

/-- The magnitude nearest to the fraction `num / den`; `none` when it is beyond the largest. -/
def nearest? (num den : Nat) : Option Magnitude :=
  if num = 0 then some zero
  else
    let e := max leastExponent (exponentOf num den)
    let (n, d) := shift num den (-e)
    let m := roundDiv n d
    let rounded : Magnitude := if m = twoTo 53 then ⟨twoTo 52, e + 1⟩ else ⟨m, e⟩
    if rounded.exponent ≤ greatestExponent then some rounded else none

def mul? (a b : Magnitude) : Option Magnitude :=
  let (n, d) := shift (a.significand * b.significand) 1 (a.exponent + b.exponent)
  nearest? n d

def div? (a b : Magnitude) : Option Magnitude :=
  let (n, d) := shift a.significand b.significand (a.exponent - b.exponent)
  nearest? n d

/-- A magnitude times a power of ten, in steps of at most 308 places that are rounded one by one.
    Zero stays zero, whatever the power. -/
def scale? (a : Magnitude) (places : Int) : Option Magnitude :=
  if places.natAbs ≤ 308 then do
    let power ← nearest? (tenTo places.natAbs) 1
    if 0 ≤ places then a.mul? power else a.div? power
  else if a.significand = 0 then some a
  else if 0 < places then none
  else do
    let power ← nearest? (tenTo 308) 1
    let smaller ← a.div? power
    smaller.scale? (places + 308)
termination_by places.natAbs
decreasing_by omega

end Magnitude
end PluginAudit
