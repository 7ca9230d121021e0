/-!
# Text — lists of characters

Every text of the library is a list of characters, so a law about a text is a law about a list and a position is a
count of characters.  Here are the operations that know nothing of the notation: decimal numbers, lines, cutting with
bounds that may count from the end, and padding.
-/
namespace Statechart

/-- A text: its characters in order. -/
abbrev Text := List Char

namespace Text

/-- The decimal digits of a natural number. -/
def ofNat (n : Nat) : Text := Nat.toDigits 10 n

/-- The decimal digits of an integer, a minus sign before a negative one. -/
def ofInt : Int → Text
  | .ofNat n => ofNat n
  | .negSucc n => '-' :: ofNat (n + 1)

/-- The pieces between the separators; there is always one more piece than there are separators. -/
def splitAt (sep : Char) : Text → List Text
  | [] => [[]]
  | c :: cs =>
    if c = sep then [] :: splitAt sep cs
    else match splitAt sep cs with
      | [] => [[c]]
      | piece :: rest => (c :: piece) :: rest

/-- The lines of a text: a line feed stands between two lines. -/
def lines (t : Text) : List Text := splitAt '\n' t

/-- The pieces with a separator between each two. -/
def join (sep : Text) (pieces : List Text) : Text := List.intercalate sep pieces

/-- Lines put together again. -/
def unlines (ls : List Text) : Text := join ['\n'] ls

def blanks (n : Nat) : Text := List.replicate n ' '

/-- Blanks before a text that is narrower than `width`. -/
def padLeft (width : Nat) (t : Text) : Text := blanks (width - t.length) ++ t

/-- A character after a text as often as it is narrower than `width`. -/
def padRightWith (c : Char) (width : Nat) (t : Text) : Text := t ++ List.replicate (width - t.length) c

def padRight (width : Nat) (t : Text) : Text := padRightWith ' ' width t

/-- A bound of a cut in a list of `n` elements: a negative one counts from the end, and none leaves the list. -/
def bound (n : Nat) (i : Int) : Nat := if i < 0 then (i + n).toNat else min i.toNat n

/-- The elements from `start` up to, but not with, `stop`. -/
def slice {α : Type} (start stop : Int) (xs : List α) : List α :=
  (xs.take (bound xs.length stop)).drop (bound xs.length start)

/-- Every line ending written as one line feed: a carriage return counts with the line feed after it, or alone. -/
def plainLineEnds : Text → Text
  | '\r' :: '\n' :: rest => '\n' :: plainLineEnds rest
  | '\r' :: rest => '\n' :: plainLineEnds rest
  | c :: rest => c :: plainLineEnds rest
  | [] => []

/-- The text without the trailing characters that satisfy `p`. -/
def dropEndWhile (p : Char → Bool) (t : Text) : Text := (t.reverse.dropWhile p).reverse

theorem splitAt_ne_nil (sep : Char) : ∀ t : Text, splitAt sep t ≠ []
  | [] => by simp [splitAt]
  | c :: cs => by
    rw [splitAt]
    split
    · simp
    · split <;> simp

theorem lines_ne_nil (t : Text) : lines t ≠ [] := splitAt_ne_nil '\n' t

/-- **Cutting loses nothing**: the pieces joined by the separator are the text again. -/
theorem join_splitAt (sep : Char) : ∀ t : Text, join [sep] (splitAt sep t) = t
  | [] => rfl
  | c :: cs => by
    have ih := join_splitAt sep cs
    rw [splitAt]
    split
    · next h =>
      subst h
      cases hs : splitAt c cs with
      | nil => exact absurd hs (splitAt_ne_nil c cs)
      | cons piece rest =>
        rw [hs] at ih
        simp only [join, List.intercalate] at ih ⊢
        simp [List.intersperse, ih]
    · cases hs : splitAt sep cs with
      | nil => exact absurd hs (splitAt_ne_nil sep cs)
      | cons piece rest =>
        rw [hs] at ih
        cases rest with
        | nil => simpa [join, List.intercalate] using ih
        | cons next rest' =>
          simp only [join, List.intercalate, List.intersperse, List.flatten_cons] at ih ⊢
          simp [← ih]

theorem unlines_lines (t : Text) : unlines (lines t) = t := join_splitAt '\n' t

end Text
end Statechart
