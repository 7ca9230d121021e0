import Statechart.Text.Basic
/-!
# Cursor — a place in a text

A cursor is a text cut in two, the characters behind it nearest first, with the line and the column of its place.  All
movement is `advance`, so what is behind and what is ahead always make up the same text (`advanceBy_text`).
-/
namespace Statechart

structure Cursor where
  behind : Text := []
  ahead : Text
  line : Nat := 1
  column : Nat := 1
deriving DecidableEq, Repr

namespace Cursor

def start (t : Text) : Cursor where
  ahead := t

/-- The text the cursor stands in. -/
def text (c : Cursor) : Text := c.behind.reverse ++ c.ahead

/-- How many characters are behind. -/
def offset (c : Cursor) : Nat := c.behind.length

/-- The character at the cursor. -/
def current (c : Cursor) : Option Char := c.ahead.head?

/-- The character `n` places further on. -/
def peek (c : Cursor) (n : Nat) : Option Char := c.ahead[n]?

/-- One character further; at the end nothing moves. -/
def advance (c : Cursor) : Cursor :=
  match c.ahead with
  | [] => c
  | x :: rest =>
    if x = '\n' then ⟨x :: c.behind, rest, c.line + 1, 1⟩ else ⟨x :: c.behind, rest, c.line, c.column + 1⟩

def advanceBy (c : Cursor) : Nat → Cursor
  | 0 => c
  | n + 1 => c.advance.advanceBy n

/-- The longest run of characters ahead that satisfy `p`. -/
def run (c : Cursor) (p : Char → Bool) : Text := c.ahead.takeWhile p

/-- The cursor behind that run. -/
def skip (c : Cursor) (p : Char → Bool) : Cursor := c.advanceBy (c.run p).length

theorem advance_ahead (c : Cursor) : c.advance.ahead = c.ahead.tail := by
  unfold advance
  split
  · next h => simp [h]
  · next h => rw [h]; split <;> rfl

theorem advance_text (c : Cursor) : c.advance.text = c.text := by
  unfold advance
  split
  · rfl
  · next h => split <;> simp [text, h]

theorem advanceBy_ahead : ∀ (n : Nat) (c : Cursor), (c.advanceBy n).ahead = c.ahead.drop n
  | 0, _ => rfl
  | n + 1, c => by rw [advanceBy, advanceBy_ahead n, advance_ahead, List.drop_tail]

/-- **Movement keeps the text.** -/
theorem advanceBy_text : ∀ (n : Nat) (c : Cursor), (c.advanceBy n).text = c.text
  | 0, _ => rfl
  | n + 1, c => by rw [advanceBy, advanceBy_text n, advance_text]

theorem drop_length_takeWhile {α : Type} (p : α → Bool) : ∀ l : List α, l.drop (l.takeWhile p).length = l.dropWhile p
  | [] => rfl
  | x :: l => by
    rw [List.takeWhile_cons, List.dropWhile_cons]
    split
    · simp [drop_length_takeWhile p l]
    · rfl

theorem skip_ahead (c : Cursor) (p : Char → Bool) : (c.skip p).ahead = c.ahead.dropWhile p := by
  rw [skip, advanceBy_ahead, run, drop_length_takeWhile]

/-- **Skipping stops at the first character that does not belong.** -/
theorem run_append_skip (c : Cursor) (p : Char → Bool) : c.run p ++ (c.skip p).ahead = c.ahead := by
  rw [skip_ahead, run, List.takeWhile_append_dropWhile]

theorem length_skip_le (c : Cursor) (p : Char → Bool) : (c.skip p).ahead.length ≤ c.ahead.length := by
  have h := congrArg List.length (run_append_skip c p)
  rw [List.length_append] at h
  omega

end Cursor
end Statechart
