/-!
# Ranges — sets of code points

A set of code points is kept as its borders in rising order: the first code point inside, the first one outside again,
and so on.
-/
namespace Statechart
namespace Text

/-- Whether a code point lies inside the set with these borders. -/
def within : List Nat → Nat → Bool
  | first :: past :: borders, n => if n < first then false else if n < past then true else within borders n
  | [first], n => decide (first ≤ n)
  | [], _ => false

end Text
end Statechart
