/-!
# Binary64 — numbers with a binary point

A number is `mantissa · 2 ^ exponent` with a sign, or infinite, or none.  A mantissa has at most 53 binary digits and
an exponent lies between `leastExponent` and `greatestExponent`.  `ofRatio` rounds a quotient to the nearest number, a
tie to the even mantissa.
-/
namespace Statechart

inductive Binary64 where
  | notANumber
  | infinite (negative : Bool)
  | finite (negative : Bool) (mantissa : Nat) (exponent : Int)
deriving DecidableEq, Repr

namespace Binary64

def leastExponent : Int := -1074

def greatestExponent : Int := 971

/-- The first mantissa that is too long. -/
def mantissaEnd : Nat := Nat.pow 2 53

/-- The whole number nearest to a quotient, the even one of two. -/
def roundedQuotient (num den : Nat) : Nat :=
  let q := num / den
  let twice := 2 * (num % den)
  if twice < den then q else if den < twice then q + 1 else if q % 2 = 0 then q else q + 1

/-- The quotient `num / den · 2 ^ (-e)`, as numerator and denominator. -/
def scaledDown (num den : Nat) (e : Int) : Nat × Nat :=
  if 0 ≤ e then (num, den * Nat.pow 2 e.toNat) else (num * Nat.pow 2 (-e).toNat, den)

/-- The number with a rounded mantissa, which may be one digit too long. -/
def ofRounded (negative : Bool) (m : Nat) (e : Int) : Binary64 :=
  let (m, e) := if m = mantissaEnd then (m / 2, e + 1) else (m, e)
  if greatestExponent < e then infinite negative else finite negative m e

/-- The exponent at which the mantissa of a quotient fills its digits, or the least one. -/
def exponentOf (num den : Nat) : Int :=
  let e := max ((num.log2 : Int) - den.log2 - 53) leastExponent
  let (n, d) := scaledDown num den e
  if mantissaEnd * d ≤ n then e + 1 else e

/-- The number nearest to `num / den`. -/
def ofRatio (negative : Bool) (num den : Nat) : Binary64 :=
  if num = 0 then finite negative 0 leastExponent
  else
    let e := exponentOf num den
    let (n, d) := scaledDown num den e
    ofRounded negative (roundedQuotient n d) e

/-- The number of digits, beyond which a decimal is certainly infinite or zero. -/
def farExponent : Int := 400

/-- The number nearest to `digits · 10 ^ exponent`. -/
def ofDecimal (negative : Bool) (digits : Nat) (exponent : Int) : Binary64 :=
  let size : Int := (Nat.toDigits 10 digits).length + exponent
  if digits = 0 ∨ size < -farExponent then finite negative 0 leastExponent
  else if farExponent < size then infinite negative
  else if 0 ≤ exponent then ofRatio negative (digits * Nat.pow 10 exponent.toNat) 1
  else ofRatio negative digits (Nat.pow 10 (-exponent).toNat)

end Binary64
end Statechart
