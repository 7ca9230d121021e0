import Statechart.Diagnostic.Context
/-!
# Indentation — a line that ends a block where none began

The lexer refuses a line that is less indented than the block it stands in but as deep as none of the blocks around
it.  The refusal keeps the width of the line, the widths that were open, outermost first, the number of the line and,
when it is known, the source.
-/
namespace Statechart
namespace Diagnostic

structure BadIndentation where
  width : Int
  stack : List Int
  line : Int
  source : Option Text := none
deriving DecidableEq, Repr

namespace BadIndentation

def shownStack (stack : List Int) : Text := '[' :: Text.join ", ".toList (stack.map Text.ofInt) ++ [']']

/-- What is wrong, without the place. -/
def bare (e : BadIndentation) : Text :=
  "Invalid indentation: width ".toList ++ Text.ofInt e.width ++ " does not match any open block ".toList ++
    shownStack e.stack

/-- The first character after the indentation, with two source lines on either side. -/
def context (e : BadIndentation) : Context where
  line := e.line
  column := e.width + 1
  snippet := e.source.map (fun t => excerpt t e.line Context.lead)

def message (e : BadIndentation) : Text := located (some e.context) e.bare

end BadIndentation
end Diagnostic
end Statechart
