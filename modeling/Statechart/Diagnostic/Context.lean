import Statechart.Text.Basic
/-!
# Context — where in a source something went wrong

A context is a line and a column, the name of the source if it has one, and some source lines around the place.  It is
shown as the location and below it those lines with their numbers, the column of the place marked under its line.
-/
namespace Statechart
namespace Diagnostic

structure Context where
  line : Int
  column : Int
  source : Option Text := none
  snippet : Option Text := none
deriving DecidableEq, Repr

/-- The lines of a text that are at most `radius` away from a line. -/
def excerpt (t : Text) (line radius : Int) : Text :=
  let ls := Text.lines t
  Text.unlines (Text.slice (max 1 (line - radius) - 1) (min ls.length (line + radius)) ls)

namespace Context

/-- How many lines a snippet shows before the line of the place. -/
def lead : Int := 2

/-- The number of a line in front of it, at least four places wide. -/
def margin (number : Int) : Text := Text.padLeft 4 (Text.ofInt number) ++ " | ".toList

/-- A line with its number, and under the line of the place a mark at the column. -/
def numbered (c : Context) (number : Int) (content : Text) : List Text :=
  let shown := margin number ++ content
  if number = c.line then
    [shown, Text.blanks ((margin number).length + c.column - 1).toNat ++ "^^^".toList]
  else [shown]

/-- Lines numbered in order from `first`. -/
def numberedFrom (c : Context) : Int → List Text → List Text
  | _, [] => []
  | first, content :: rest => c.numbered first content ++ c.numberedFrom (first + 1) rest

/-- The source lines of a context with their numbers; an empty snippet shows nothing. -/
def shownSnippet (c : Context) : Text :=
  match c.snippet with
  | none | some [] => []
  | some s => Text.unlines (c.numberedFrom (max 1 (c.line - lead)) (Text.lines s))

/-- The line and the column, behind the name of the source if there is one. -/
def location (c : Context) : Text :=
  let place := Text.ofInt c.line ++ ':' :: Text.ofInt c.column
  match c.source with
  | none | some [] => place
  | some name => name ++ ':' :: place

/-- The location, and below it the source lines if there are any. -/
def shown (c : Context) : Text :=
  match c.snippet with
  | none | some [] => c.location
  | some _ => c.location ++ '\n' :: c.shownSnippet

end Context

/-- A message below the context it belongs to. -/
def located (context : Option Context) (message : Text) : Text :=
  match context with
  | none => message
  | some c => c.shown ++ '\n' :: message

end Diagnostic
end Statechart
