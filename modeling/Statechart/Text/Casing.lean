import Statechart.Text.Basic
import Statechart.Text.Ranges
import Statechart.Text.Casing.Table
/-!
# Casing — capital and small letters

The full case mappings of Unicode: most letters map to one letter, some to several (`ß` to `SS`), and the capital
sigma becomes the small letter of a word's end when a letter stands before it and none after it.
-/
namespace Statechart
namespace Text
namespace Casing

/-- The image of a code point under the rows of a table. -/
def shifted : List (Nat × Nat × Nat × Int) → Nat → Nat
  | [], n => n
  | (first, last, step, shift) :: rows, n =>
    if n < first then n
    else if n ≤ last ∧ (n - first) % step = 0 then ((n : Int) + shift).toNat
    else shifted rows n

/-- The image of a character: a longer one if it has one, else the one of the rows. -/
def image (rows : List (Nat × Nat × Nat × Int)) (long : List (Nat × List Nat)) (c : Char) : Text :=
  match long.lookup c.toNat with
  | some codes => codes.map Char.ofNat
  | none => [Char.ofNat (shifted rows c.toNat)]

def isCased (c : Char) : Bool := within cased c.toNat

def isIgnorable (c : Char) : Bool := within ignorable c.toNat

/-- Whether the first character that does not interrupt the word is a letter with case. -/
def nextCased (t : Text) : Bool :=
  match t.dropWhile isIgnorable with
  | [] => false
  | c :: _ => isCased c

/-- The small letters of a text, whose characters so far are `before` (nearest first). -/
def lowerFrom : Text → Text → Text
  | _, [] => []
  | before, c :: rest =>
    (if c = 'Σ' then [if nextCased before && !nextCased rest then 'ς' else 'σ']
     else if c.toNat < 128 then [c.toLower]
     else image lowerRows lowerLong c) ++ lowerFrom (c :: before) rest

end Casing

def lower (t : Text) : Text := Casing.lowerFrom [] t

def upper (t : Text) : Text :=
  t.flatMap (fun c => if c.toNat < 128 then [c.toUpper] else Casing.image Casing.upperRows Casing.upperLong c)

end Text
end Statechart
