import Statechart.Doc
/-!
# Json — documents as JSON text

A text stands between quotes with the quote, the backslash and the characters below the blank escaped; all others
stand for themselves.  Without indentation a document is one line, with a blank behind each comma and colon.  With
one, every item has its own line, indented by the width for each level; a negative width is none, but the lines stay.
-/
namespace Statechart
namespace Doc
namespace Json

/-- A character between quotes. -/
def escaped (c : Char) : Text :=
  if c = '"' then ['\\', '"']
  else if c = '\\' then ['\\', '\\']
  else if c = '\n' then ['\\', 'n']
  else if c = '\r' then ['\\', 'r']
  else if c = '\t' then ['\\', 't']
  else if c = '\x08' then ['\\', 'b']
  else if c = '\x0c' then ['\\', 'f']
  else if c.toNat < 0x20 then ['\\', 'u', '0', '0', Nat.digitChar (c.toNat / 16), Nat.digitChar (c.toNat % 16)]
  else [c]

def string (t : Text) : Text := '"' :: t.flatMap escaped ++ ['"']

/-- How items are set apart: all on one line, or each on a line of its own, indented by the width for each level. -/
inductive Layout where
  | oneLine
  | lines (width : Nat)
deriving DecidableEq, Repr

namespace Layout

/-- The layout for an indentation: none is one line. -/
def ofIndent (indent : Int) : Layout := if indent = 0 then .oneLine else .lines indent.toNat

/-- What stands before the first item, or behind the last, at a level. -/
def margin (level : Nat) : Layout → Text
  | oneLine => []
  | lines width => '\n' :: Text.blanks (width * level)

/-- What stands between two items at a level. -/
def between (level : Nat) : Layout → Text
  | oneLine => [',', ' ']
  | lines width => ',' :: '\n' :: Text.blanks (width * level)

end Layout

/-- Items of a level inside brackets; without items the brackets stand together. -/
def enclosed (layout : Layout) (level : Nat) (opening closing : Char) : List Text → Text
  | [] => [opening, closing]
  | items => opening :: layout.margin (level + 1) ++ Text.join (layout.between (level + 1)) items ++
      layout.margin level ++ [closing]

def flag : Bool → Text
  | true => "true".toList
  | false => "false".toList

mutual

/-- A document at a level. -/
def written (layout : Layout) (level : Nat) : Doc → Text
  | .text t => string t
  | .int i => Text.ofInt i
  | .flag b => flag b
  | .list items => enclosed layout level '[' ']' (writtenItems layout (level + 1) items)
  | .map entries => enclosed layout level '{' '}' (writtenEntries layout (level + 1) entries)

def writtenItems (layout : Layout) (level : Nat) : List Doc → List Text
  | [] => []
  | d :: rest => written layout level d :: writtenItems layout level rest

def writtenEntries (layout : Layout) (level : Nat) : List (Text × Doc) → List Text
  | [] => []
  | (key, d) :: rest =>
    (string key ++ ':' :: ' ' :: written layout level d) :: writtenEntries layout level rest

end

end Json

def toJson (indent : Int) (d : Doc) : Text := Json.written (Json.Layout.ofIndent indent) 0 d

end Doc
end Statechart
