import Statechart.Text.Basic
import Statechart.Text.Printable
/-!
# Quoted — a text between quotes, as messages show it

The quote is `'`, or `"` for a text that holds `'` but no `"`.  The backslash and the quote in use are escaped, the
tabulator and the two line ends have an escape of their own, and any other character that is not printable is written
by its code point in two, four or eight hexadecimal digits.
-/
namespace Statechart
namespace Text

/-- The quote that needs the fewer escapes. -/
def quoteMark (t : Text) : Char := if t.contains '\'' && !t.contains '"' then '"' else '\''

/-- The hexadecimal digits of a number, with zeros in front up to `width`. -/
def hex (width n : Nat) : Text :=
  let digits := Nat.toDigits 16 n
  List.replicate (width - digits.length) '0' ++ digits

/-- A character inside quotes of the kind `mark`. -/
def quotedChar (mark c : Char) : Text :=
  if c = mark || c = '\\' then ['\\', c]
  else if c = '\t' then ['\\', 't']
  else if c = '\n' then ['\\', 'n']
  else if c = '\r' then ['\\', 'r']
  else if isPrintable c then [c]
  else if c.toNat < 0x100 then '\\' :: 'x' :: hex 2 c.toNat
  else if c.toNat < 0x10000 then '\\' :: 'u' :: hex 4 c.toNat
  else '\\' :: 'U' :: hex 8 c.toNat

def quoted (t : Text) : Text := quoteMark t :: t.flatMap (quotedChar (quoteMark t)) ++ [quoteMark t]

end Text
end Statechart
