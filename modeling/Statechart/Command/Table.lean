import Statechart.Text.Basic
/-!
# Table — rows of texts in a box

A table has a title, columns with a heading, and rows.  A column is as wide as its longest cell, with a blank on
either side, and aligns its cells left or right.  Heavy lines surround the headings and light lines the rows.  The
title stands in the middle above; one that is wider than the table goes on several lines, broken between words, or
inside a word that is longer than a line.
-/
namespace Statechart

structure Column where
  heading : Text
  toRight : Bool := false
deriving DecidableEq, Repr

structure Table where
  title : Text
  columns : List Column
  rows : List (List Text)
deriving DecidableEq, Repr

namespace Table

def widest (cells : List Text) : Nat := cells.foldl (fun n cell => max n cell.length) 0

def widths (t : Table) : List Nat :=
  t.columns.mapIdx (fun i column => widest (column.heading :: t.rows.map (fun row => row.getD i [])))

/-- A line of the box: the characters at its ends, between columns, and along them. -/
def rule (first between last along : Char) (ws : List Nat) : Text :=
  first :: Text.join [between] (ws.map (fun w => List.replicate (w + 2) along)) ++ [last]

/-- A cell, aligned, with a blank on either side. -/
def cell (width : Nat) (column : Column) (text : Text) : Text :=
  ' ' :: (if column.toRight then Text.padLeft width text else Text.padRight width text) ++ [' ']

def row (bar : Char) (columns : List Column) (ws : List Nat) (texts : List Text) : Text :=
  bar :: Text.join [bar] (((ws.zip columns).zip texts).map (fun c => cell c.1.1 c.1.2 c.2)) ++ [bar]

def width (t : Table) : Nat := t.widths.foldr (fun w n => w + 3 + n) 1

/-- A text in the middle of a line. -/
def centred (width : Nat) (t : Text) : Text :=
  Text.padRight width (Text.blanks ((width - t.length) / 2) ++ t)

/-- A text cut into pieces of a length, at most `limit` and one; the last may be shorter. -/
def chunksUpTo (width : Nat) : Nat → Text → List Text
  | 0, t => [t]
  | limit + 1, t => if t.length ≤ width then [t] else t.take width :: chunksUpTo width limit (t.drop width)

/-- The words of a text, each with the blanks behind it, the first also with those before it.  `word` is the word at
hand, from its end, and `begun` tells whether it holds more than blanks. -/
def wordsFrom (word : Text) (begun : Bool) : Text → List Text
  | [] => [word.reverse]
  | c :: rest =>
    if c = ' ' then wordsFrom (c :: word) begun rest
    else if begun && word.head? = some ' ' then word.reverse :: wordsFrom [c] true rest
    else wordsFrom (c :: word) true rest

def trimmed (t : Text) : Text := Text.dropEndWhile (· = ' ') t

/-- Fills lines with words; `line` is the line at hand. -/
def fill (width : Nat) (line : Text) : List Text → List Text
  | [] => [line]
  | word :: rest =>
    if line.length + (trimmed word).length ≤ width then fill width (line ++ word) rest
    else
      let pieces := if width < (trimmed word).length then chunksUpTo width word.length word else [word]
      (if line.isEmpty then [] else [line]) ++ pieces.dropLast ++ fill width (pieces.getLastD []) rest

def titleLines (t : Table) : List Text := (fill t.width [] (wordsFrom [] false t.title)).map trimmed

/-- The table as a text, each line with its end. -/
def shown (t : Table) : Text :=
  let ws := t.widths
  ((t.titleLines.map (centred t.width) ++
    [rule '┏' '┳' '┓' '━' ws, row '┃' t.columns ws (t.columns.map Column.heading), rule '┡' '╇' '┩' '━' ws] ++
    t.rows.map (row '│' t.columns ws) ++ [rule '└' '┴' '┘' '─' ws]).map (· ++ ['\n'])).flatten

end Table
end Statechart
