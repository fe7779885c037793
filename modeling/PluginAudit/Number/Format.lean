import PluginAudit.Number.Shortest
import PluginAudit.Text.Basic

/-!
# Number formats

A number is written with the digits of its shortest decimal, either positionally with at least one
digit on each side of the point, or with one digit before the point and an exponent.
-/
namespace PluginAudit

/-- The decisions of a way to write numbers: between which decimal exponents of the first digit
    numbers are written positionally, the mark before an exponent, and the sign of one that is not
    negative. -/
structure NumberFormat where
  leastPositional : Int
  greatestPositional : Int
  exponentMark : Text
  plusSign : Text

namespace NumberFormat

/-- Digits whose first one counts multiples of `10 ^ lead`, written positionally. -/
def positional (digits : Text) (lead : Int) : Text :=
  if lead < 0 then lit "0." ++ List.replicate (-lead - 1).toNat '0' ++ digits
  else
    let whole := lead.toNat + 1
    if digits.length ≤ whole then digits ++ List.replicate (whole - digits.length) '0' ++ lit ".0"
    else digits.take whole ++ '.' :: digits.drop whole

/-- Digits whose first one counts multiples of `10 ^ lead`, written with an exponent. -/
def withExponent (f : NumberFormat) (digits : Text) (lead : Int) : Text :=
  let mantissa :=
    match digits with
    | first :: d :: rest => first :: '.' :: d :: rest
    | digits => digits
  mantissa ++ f.exponentMark ++ (if 0 ≤ lead then f.plusSign else []) ++ Text.ofInt lead

def writeMagnitude (f : NumberFormat) (a : Magnitude) : Text :=
  if a.significand = 0 then lit "0.0"
  else
    let d := a.shortest
    let digits := Text.ofNat d.digits
    let lead : Int := d.exponent + digits.length - 1
    if f.leastPositional ≤ lead ∧ lead ≤ f.greatestPositional then positional digits lead
    else f.withExponent digits lead

/-- Writes a number, with a minus sign in front if it is negative, zero included. -/
def write (f : NumberFormat) (x : Binary64) : Text :=
  (if x.negative then ['-'] else []) ++ f.writeMagnitude x.magnitude

end NumberFormat
end PluginAudit
