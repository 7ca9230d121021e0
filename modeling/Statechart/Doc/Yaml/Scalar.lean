import Statechart.Doc.Yaml.Resolution
import Statechart.Text.Quoted
/-!
# Scalar — a text in YAML

A text is written plain when a reader takes it back for the same text, else between single quotes when they can hold
it, else between double quotes, where anything can be escaped.  A line longer than `lineWidth` is folded at a single
blank, or anywhere in double quotes behind a backslash; what follows begins at the indentation.  Keys are never
folded.
-/
namespace Statechart
namespace Doc
namespace Yaml

/-- How long a line may grow before it is folded. -/
def lineWidth : Nat := 80

/-- The characters that break a line. -/
def isBreak (c : Char) : Bool := c == '\n' || c == '\x85' || c == '\u2028' || c == '\u2029'

/-- The characters that separate words. -/
def isSeparator (c : Char) : Bool := c == '\x00' || c == ' ' || c == '\t' || c == '\r' || isBreak c

/-- Whether a text goes on with a separator, or not at all. -/
def separates : Text → Bool
  | [] => true
  | c :: _ => isSeparator c

/-- The printable characters of ASCII. -/
def isAscii (c : Char) : Bool := 0x20 ≤ c.toNat && c.toNat ≤ 0x7E

/-- The characters of the basic plane beyond ASCII that stand for themselves, also between double quotes. -/
def isPlane (c : Char) : Bool :=
  ((0xA0 ≤ c.toNat && c.toNat ≤ 0xD7FF) || (0xE000 ≤ c.toNat && c.toNat ≤ 0xFFFD)) && c != '\uFEFF'

/-- The characters that only an escape can write. -/
def isSpecial (c : Char) : Bool :=
  !(c == '\n' || isAscii c || c == '\x85' || isPlane c || (0x10000 ≤ c.toNat && c.toNat < 0x10FFFF))

/-- The characters that mean something to a reader at the start of a text. -/
def indicators : Text := "#,[]\x7b\x7d&*!|>'\"%@\x60".toList

/-- Whether a reader takes the start of a text for the start of something else. -/
def startsOther : Text → Bool
  | [] => false
  | c :: rest => indicators.contains c || ((c == '?' || c == ':' || c == '-') && separates rest)

/-- Whether behind a character a reader takes a colon or a hash for the end of the text. -/
def endsInside : Char → Text → Bool
  | _, [] => false
  | before, c :: rest =>
    (c == ':' && separates rest) || (c == '#' && isSeparator before) || endsInside c rest

/-- Whether the first character lets a reader see the end of the text before it is over. -/
def isCutShort : Text → Bool
  | [] => false
  | c :: rest => endsInside c rest

/-- Whether a blank and a line break follow each other somewhere. -/
def breaksAtBlank : Text → Bool
  | [] | [_] => false
  | c :: d :: rest => (c == ' ' && isBreak d) || (isBreak c && d == ' ') || breaksAtBlank (d :: rest)

/-- Whether three characters that mark a document are the first ones. -/
def marksDocument (t : Text) : Bool := t.take 3 == ['-', '-', '-'] || t.take 3 == ['.', '.', '.']

inductive Style where
  | plain
  | single
  | double
deriving DecidableEq, Repr

/-- Whether a reader takes a text back as it stands. -/
def isPlain (t : Text) : Bool :=
  !isOther t && !t.any isSpecial && !t.any isBreak && !marksDocument t && !startsOther t && !isCutShort t &&
    t.head? != some ' ' && t.getLast? != some ' '

/-- The plainest style that a text can be written in. -/
def styleOf (t : Text) : Style :=
  if isPlain t then .plain
  else if !t.any isSpecial && !breaksAtBlank t then .single
  else .double

/-- Where a text is written: whether it may be folded, and the indentation behind a fold. -/
structure Place where
  folds : Bool
  indent : Nat
deriving DecidableEq, Repr

/-- A line break, and the indentation of what follows. -/
def newLine (indent : Nat) : Text := '\n' :: Text.blanks indent

/-- Blanks, line breaks, and all else. -/
def runClass (c : Char) : Nat := if c = ' ' then 0 else if isBreak c then 1 else 2

/-- The longest runs of characters of one class. -/
def runs (t : Text) : List Text := t.splitBy (fun a b => runClass a == runClass b)

/-- A plain text from a column on, run by run. -/
def plainRuns (place : Place) : Nat → List Text → Text
  | _, [] => []
  | column, run :: rest =>
    if run = [' '] ∧ lineWidth < column ∧ place.folds then newLine place.indent ++ plainRuns place place.indent rest
    else run ++ plainRuns place (column + run.length) rest

/-- Quotes inside single quotes are written twice. -/
def doubleQuotes (t : Text) : Text := t.flatMap (fun c => if c = '\'' then ['\'', '\''] else [c])

/-- Line breaks inside single quotes: a line feed at the start is written twice, for a reader takes one away. -/
def writtenBreaks (run : Text) : Text := if run.head? = some '\n' then '\n' :: run else run

/-- A text inside single quotes from a column on, run by run; the first and the last run are never folded. -/
def singleRuns (place : Place) : Bool → Nat → List Text → Text
  | _, _, [] => []
  | first, column, run :: rest =>
    if run = [' '] ∧ lineWidth < column ∧ place.folds ∧ first = false ∧ rest ≠ [] then
      newLine place.indent ++ singleRuns place false place.indent rest
    else if run.any isBreak then
      writtenBreaks run ++ Text.blanks place.indent ++ singleRuns place false place.indent rest
    else
      doubleQuotes run ++ singleRuns place false (column + (doubleQuotes run).length) rest

/-- The characters that have to be escaped between double quotes. -/
def needsEscape (c : Char) : Bool :=
  c == '"' || c == '\\' || isBreak c || !(isAscii c || isPlane c)

/-- The letter of a short escape. -/
def shortEscape? (c : Char) : Option Char :=
  [('\x00', '0'), ('\x07', 'a'), ('\x08', 'b'), ('\t', 't'), ('\n', 'n'), ('\x0b', 'v'), ('\x0c', 'f'), ('\r', 'r'),
    ('\x1b', 'e'), ('"', '"'), ('\\', '\\'), ('\x85', 'N'), ('\u2028', 'L'), ('\u2029', 'P')].lookup c

/-- An escape: a letter, or the code point in hexadecimal digits. -/
def escape (c : Char) : Text :=
  match shortEscape? c with
  | some letter => ['\\', letter]
  | none =>
    let digits (width : Nat) : Text := (Text.hex width c.toNat).map Char.toUpper
    if c.toNat < 0x100 then '\\' :: 'x' :: digits 2
    else if c.toNat < 0x10000 then '\\' :: 'u' :: digits 4
    else '\\' :: 'U' :: digits 8

/-- A fold inside double quotes; a blank right behind it is kept by a backslash. -/
def doubleFold (place : Place) (next : Option Char) : Text :=
  '\\' :: newLine place.indent ++ (if next = some ' ' then ['\\'] else [])

/-- The column behind such a fold. -/
def columnBehindFold (place : Place) (next : Option Char) : Nat :=
  place.indent + (if next = some ' ' then 1 else 0)

/-- A text inside double quotes: `column` is the column where the characters not yet written begin, `held` holds them,
the latest first.  Neither the first nor the last character is folded at. -/
def doubleFrom (place : Place) : Bool → Nat → Text → Text → Text
  | _, _, held, [] => held.reverse
  | first, column, held, c :: rest =>
    if needsEscape c then
      let written := held.reverse ++ escape c
      let column := column + written.length
      if first = false ∧ rest ≠ [] ∧ lineWidth + 1 < column ∧ place.folds then
        written ++ doubleFold place rest.head? ++
          doubleFrom place false (columnBehindFold place rest.head?) [] rest
      else written ++ doubleFrom place false column [] rest
    else if first = false ∧ rest ≠ [] ∧ (c = ' ' ∨ held = []) ∧ lineWidth < column + held.length ∧ place.folds then
      held.reverse ++ doubleFold place (some c) ++ doubleFrom place false (columnBehindFold place (some c)) [c] rest
    else doubleFrom place false column (c :: held) rest

/-- A text in a style, from a column on. -/
def styled (place : Place) (column : Nat) (t : Text) : Style → Text
  | .plain => plainRuns place column (runs t)
  | .single => '\'' :: singleRuns place true (column + 1) (runs t) ++ ['\'']
  | .double => '"' :: doubleFrom place true (column + 1) [] t ++ ['"']

def scalar (place : Place) (column : Nat) (t : Text) : Text := styled place column t (styleOf t)

end Yaml
end Doc
end Statechart
