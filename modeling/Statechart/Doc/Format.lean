import Statechart.Doc.Json
import Statechart.Text.Quoted
/-!
# Format — the two forms a document is written in

JSON is written here.  What writes YAML is given: it takes an indentation and a document, and is never asked for an
indentation below two.
-/
namespace Statechart

/-- A document as YAML text. -/
def Doc.toYaml (dump : Int → Doc → Text) (indent : Int) (d : Doc) : Text := dump (max indent 2) d

inductive Format where
  | json
  | yaml
deriving DecidableEq, Repr

namespace Format

def name : Format → Text
  | json => "json".toList
  | yaml => "yaml".toList

def all : List Format := [json, yaml]

def ofName? (t : Text) : Option Format := all.find? (fun f => f.name == t)

theorem ofName?_eq_some_iff {t : Text} {f : Format} : ofName? t = some f ↔ f.name = t := by
  constructor
  · intro h
    simpa using List.find?_some h
  · rintro rfl
    cases f <;> decide

/-- The indentation, when none is asked for. -/
def defaultIndent : Int := 2

def write (dump : Int → Doc → Text) (indent : Int) (d : Doc) : Format → Text
  | json => d.toJson indent
  | yaml => d.toYaml dump indent

/-- What is said of a name that no format has. -/
def unknown (name : Text) : Text := "Unknown output format: ".toList ++ Text.quoted name

end Format
end Statechart
