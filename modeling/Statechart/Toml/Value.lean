import Statechart.Keyed
import Statechart.Number.Shortest
import Statechart.Number.Whole
import Statechart.Text.Quoted
import Statechart.Toml.Moment
/-!
# Value — what a configuration file holds

Texts, whole numbers, numbers with a point, truth values, moments, sequences and tables.  Messages show a value in one
of two ways: as it is (`plain`), where a text stands for itself, or as it would be stated (`stated`), where a text is
quoted.  Inside a sequence or a table everything is stated.  A value is not shown if a whole number in it has too many
digits.
-/
namespace Statechart
namespace Toml

inductive Value where
  | text (t : Text)
  | int (i : Int)
  | number (x : Binary64)
  | flag (b : Bool)
  | moment (m : Moment)
  | list (items : List Value)
  | table (entries : List (Text × Value))
deriving Repr

namespace Value

def typeName : Value → Text
  | text _ => "str".toList
  | int _ => "int".toList
  | number _ => "float".toList
  | flag _ => "bool".toList
  | moment m => m.kindName
  | list _ => "list".toList
  | table _ => "dict".toList

def flagText : Bool → Text
  | true => "True".toList
  | false => "False".toList

mutual

/-- A value as it would be stated. -/
def stated : Value → Option Text
  | text t => some (Text.quoted t)
  | int i => if (Text.ofNat i.natAbs).length ≤ Whole.maxDigits then some (Text.ofInt i) else none
  | number x => some x.shown
  | flag b => some (flagText b)
  | moment m => some m.call
  | list items => (statedItems items).map (fun ts => '[' :: Text.join ", ".toList ts ++ [']'])
  | table entries => (statedEntries entries).map (fun ts => '{' :: Text.join ", ".toList ts ++ ['}'])

def statedItems : List Value → Option (List Text)
  | [] => some []
  | v :: rest => do
    let t ← v.stated
    let ts ← statedItems rest
    return t :: ts

def statedEntries : List (Text × Value) → Option (List Text)
  | [] => some []
  | (key, v) :: rest => do
    let t ← v.stated
    let ts ← statedEntries rest
    return (Text.quoted key ++ ": ".toList ++ t) :: ts

end

/-- A value as it is. -/
def plain : Value → Option Text
  | text t => some t
  | moment m => some m.text
  | v => v.stated

end Value
end Toml
end Statechart
