import Statechart.Doc.Yaml.Scalar
import Statechart.Doc
/-!
# Yaml — documents as YAML block text

A mapping has a line for each key, and below it what the key holds, one step deeper; a sequence has a dash for each
item and stands at the indentation of its key.  Behind a dash, and behind the colon of a key that is too long or too
odd to stand before a colon, what is held begins on the same line.  Nothing is held in brackets except what is empty.
-/
namespace Statechart
namespace Doc
namespace Yaml

/-- The width of a step for an indentation: two where it is less than two, or ten and more. -/
def stepOf (indent : Int) : Nat := if 1 < indent ∧ indent < 10 then indent.toNat else 2

/-- A key stands before its colon when it is shorter than this. -/
def keyLimit : Nat := 123

def isSimpleKey (key : Text) : Bool := !key.isEmpty && !key.any isBreak && decide (key.length < keyLimit)

/-- A key before its colon: it is not folded. -/
def simpleKey (key : Text) : Text := scalar ⟨false, 0⟩ 0 key

/-- Lines that begin at a column. -/
def stacked (column : Nat) (pieces : List Text) : Text := Text.join (newLine column) pieces

def flag : Bool → Text
  | true => "true".toList
  | false => "false".toList

mutual

/-- What a key holds, behind its colon; the keys begin at column `column`, and `width` is where the value would begin
on the line of the key. -/
def behindKey (step column width : Nat) : Doc → Text
  | .text t => ' ' :: scalar ⟨true, column + step⟩ (width + 1) t
  | .int i => ' ' :: Text.ofInt i
  | .flag b => ' ' :: flag b
  | .list [] => " []".toList
  | .list (item :: items) => newLine column ++ stacked column (dashed step column (item :: items))
  | .map [] => [' ', '{', '}']
  | .map (entry :: entries) =>
    newLine (column + step) ++ stacked (column + step) (keyed step (column + step) (entry :: entries))

/-- What stands behind a dash or a lone colon at a column. -/
def behindMark (step column : Nat) : Doc → Text
  | .text t => ' ' :: scalar ⟨true, column + step⟩ (column + 2) t
  | .int i => ' ' :: Text.ofInt i
  | .flag b => ' ' :: flag b
  | .list [] => " []".toList
  | .list (item :: items) =>
    Text.blanks (step - 1) ++ stacked (column + step) (dashed step (column + step) (item :: items))
  | .map [] => [' ', '{', '}']
  | .map (entry :: entries) =>
    Text.blanks (step - 1) ++ stacked (column + step) (keyed step (column + step) (entry :: entries))

/-- The items of a sequence whose dashes stand at a column. -/
def dashed (step column : Nat) : List Doc → List Text
  | [] => []
  | d :: rest => ('-' :: behindMark step column d) :: dashed step column rest

/-- The entries of a mapping whose keys stand at a column. -/
def keyed (step column : Nat) : List (Text × Doc) → List Text
  | [] => []
  | (key, d) :: rest =>
    (if isSimpleKey key then
      simpleKey key ++ ':' :: behindKey step column (column + (simpleKey key).length + 1) d
    else
      '?' :: ' ' :: scalar ⟨true, column + step⟩ (column + 2) key ++ newLine column ++
        ':' :: behindMark step column d) :: keyed step column rest

end

/-- A document that nothing holds. -/
def outermost (step : Nat) : Doc → Text
  | .text t => scalar ⟨true, step⟩ 0 t
  | .int i => Text.ofInt i
  | .flag b => flag b
  | .list [] => "[]".toList
  | .list items => stacked 0 (dashed step 0 items)
  | .map [] => ['{', '}']
  | .map entries => stacked 0 (keyed step 0 entries)

/-- A document as a text, with an indentation. -/
def dump (indent : Int) (d : Doc) : Text := outermost (stepOf indent) d ++ ['\n']

end Yaml
end Doc
end Statechart
