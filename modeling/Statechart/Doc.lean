import Statechart.Keyed
/-!
# Doc — documents

What the library writes is a document: a text, an integer, a truth value, a sequence, or a mapping whose keys keep
their order.  There is no empty value: what is absent is left out.
-/
namespace Statechart

inductive Doc where
  | text (t : Text)
  | int (i : Int)
  | flag (b : Bool)
  | list (items : List Doc)
  | map (entries : List (Text × Doc))
deriving Repr

namespace Doc

/-- An entry, or none when its value is absent. -/
def optional {α : Type} (key : Text) (write : α → Doc) : Option α → List (Text × Doc)
  | none => []
  | some v => [(key, write v)]

end Doc
end Statechart
