import Statechart.Number.Binary64
import Statechart.Text.Basic
/-!
# Shortest — the fewest decimal digits that read back

Among the decimals that round to a number, the shortest is written, and of several equally short the nearest.  For one
digit, two and so on, the two neighbours of the number on that decimal grid are tried; a grid of seventeen digits
always has a hit.
-/
namespace Statechart
namespace Binary64

/-- The reals that round to a positive number lie between `low` and `high`, all in units of `2 ^ unit`; the ends belong
to them when `closed`. -/
structure Interval where
  low : Nat
  value : Nat
  high : Nat
  unit : Int
  closed : Bool

/-- The interval of a mantissa and an exponent; below a power of two the numbers lie twice as close. -/
def interval (m : Nat) (e : Int) : Interval where
  low := if m = mantissaEnd / 2 ∧ leastExponent < e then 4 * m - 1 else 4 * m - 2
  value := 4 * m
  high := 4 * m + 2
  unit := e - 2
  closed := m % 2 == 0

/-- How `digits · 10 ^ k` compares with `n · 2 ^ unit`: both times what makes them whole. -/
def sides (digits : Nat) (k : Int) (n : Nat) (unit : Int) : Nat × Nat :=
  (digits * Nat.pow 10 k.toNat * Nat.pow 2 (-unit).toNat, n * Nat.pow 2 unit.toNat * Nat.pow 10 (-k).toNat)

namespace Interval

/-- Whether a decimal rounds to the number. -/
def holds (i : Interval) (digits : Nat) (k : Int) : Bool :=
  let (a, low) := sides digits k i.low i.unit
  let (b, high) := sides digits k i.high i.unit
  if i.closed then decide (low ≤ a ∧ b ≤ high) else decide (low < a ∧ b < high)

/-- The decimal with the exponent `k` at or below the value. -/
def below (i : Interval) (k : Int) : Nat :=
  let (unit, value) := sides 1 k i.value i.unit
  value / unit

/-- Whether the decimal above is nearer than the one below; a tie goes to the even one. -/
def aboveIsNearer (i : Interval) (k : Int) : Bool :=
  let (unit, value) := sides 1 k i.value i.unit
  let twice := 2 * (value % unit)
  decide (unit < twice) || (twice == unit && value / unit % 2 == 1)

/-- The nearest decimal of the grid that rounds to the number, if one does. -/
def onGrid (i : Interval) (k : Int) : Option Nat :=
  let a := i.below k
  match i.holds a k, i.holds (a + 1) k with
  | true, true => some (if i.aboveIsNearer k then a + 1 else a)
  | true, false => some a
  | false, true => some (a + 1)
  | false, false => none

/-- The first grid with a hit, from exponent `k` downwards. -/
def search (i : Interval) : Nat → Int → Nat × Int
  | 0, k => (i.below k, k)
  | more + 1, k => match i.onGrid k with
    | some digits => (digits, k)
    | none => search i more (k - 1)

end Interval

/-- The exponent of the leading decimal digit of a positive value `n · 2 ^ unit`. -/
def leading (n : Nat) (unit : Int) : Int :=
  if 0 ≤ unit then (Nat.toDigits 10 (n * Nat.pow 2 unit.toNat)).length - 1
  else
    -- as many decimal places as binary ones make the value whole
    (Nat.toDigits 10 (n * Nat.pow 5 (-unit).toNat)).length - 1 + unit

/-- The shortest decimal of a positive number: its digits, and the exponent of the last. -/
def shortest (m : Nat) (e : Int) : Nat × Int :=
  let i := interval m e
  i.search 17 (leading i.value i.unit)

/-- Zeros at the end of a number go into its exponent. -/
def stripped (digits : Text) : Text := Text.dropEndWhile (· == '0') digits

/-- A decimal exponent with its sign, in two digits at least. -/
def shownExponent (x : Int) : Text :=
  'e' :: (if x < 0 then '-' else '+') :: List.replicate (2 - (Text.ofNat x.natAbs).length) '0' ++ Text.ofNat x.natAbs

/-- Digits with the decimal point behind the first `point` of them.  From 10 ^ 16 on, and below 10 ^ -4, the point
stands behind the first digit, and an exponent follows. -/
def placed (digits : Text) (point : Int) : Text :=
  if 16 < point ∨ point ≤ -4 then
    (match digits with
      | [] => []
      | [d] => [d]
      | d :: rest => d :: '.' :: rest) ++ shownExponent (point - 1)
  else if point ≤ 0 then '0' :: '.' :: List.replicate (-point).toNat '0' ++ digits
  else if digits.length ≤ point.toNat then
    digits ++ List.replicate (point.toNat - digits.length) '0' ++ ['.', '0']
  else digits.take point.toNat ++ '.' :: digits.drop point.toNat

/-- The magnitude of a finite number. -/
def shownMagnitude (m : Nat) (e : Int) : Text :=
  if m = 0 then ['0', '.', '0']
  else
    let (digits, k) := shortest m e
    placed (stripped (Text.ofNat digits)) ((Text.ofNat digits).length + k)

def sign (negative : Bool) : Text := if negative then ['-'] else []

/-- A number as the shortest decimal that reads back. -/
def shown : Binary64 → Text
  | notANumber => "nan".toList
  | infinite negative => sign negative ++ "inf".toList
  | finite negative m e => sign negative ++ shownMagnitude m e

end Binary64
end Statechart
