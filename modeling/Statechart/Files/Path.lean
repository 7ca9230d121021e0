import Statechart.Text.Basic
/-!
# Path — names of files

A path is a sequence of names, from the root of the files or from the place where one stands.  Names that say nothing
(an empty one, or `.`) are left out, so a path shows in one form however it was written; `..` is kept, because only
the files themselves tell where it leads.

A place is the way from the root to a file, without `..`.
-/
namespace Statechart

/-- The names on the way from the root. -/
abbrev Place := List Text

structure Path where
  /-- The slashes before the first name: none for a path from where one stands, one from the root; two are kept. -/
  slashes : Nat
  names : List Text
deriving DecidableEq, Repr

namespace Path

/-- Whether a name says something. -/
def isName (name : Text) : Bool := name != [] && name != ['.']

/-- The slashes that a path keeps of those it is written with. -/
def keptSlashes (n : Nat) : Nat := if n = 2 then 2 else min n 1

def ofText (t : Text) : Path where
  slashes := keptSlashes (t.takeWhile (· = '/')).length
  names := (Text.splitAt '/' t).filter isName

def ofPlace (place : Place) : Path := ⟨1, place⟩

/-- The path as it is written; the one without slashes and names is `.`. -/
def shown (p : Path) : Text :=
  match p.slashes, p.names with
  | 0, [] => ['.']
  | n, names => List.replicate n '/' ++ Text.join ['/'] names

/-- One step from a place: `..` goes back. -/
def step (place : Place) (name : Text) : Place := if name = "..".toList then place.dropLast else place ++ [name]

/-- Where a path begins. -/
def origin (here : Place) (p : Path) : Place := if p.slashes = 0 then here else []

/-- Where a path leads when every name on the way is a folder. -/
def resolve (here : Place) (p : Path) : Place := p.names.foldl step (p.origin here)

end Path

namespace Place

/-- A place, given from its end, and the ones around it, the nearest first. -/
def outwardFrom : List Text → List Place
  | [] => [[]]
  | name :: outer => (name :: outer).reverse :: outwardFrom outer

/-- A place and the ones around it, the nearest first and the root last. -/
def outward (place : Place) : List Place := outwardFrom place.reverse

end Place
end Statechart
