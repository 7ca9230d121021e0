import Statechart.Diagnostic.Indentation
import Statechart.Token.Cursor
import Statechart.Token.Lexeme
/-!
# Lexer — from a text to its tokens

A lexer is a cursor in the text, the tokens so far (the latest first) and the widths of the open blocks (the innermost
first; the ground level, of width zero, is always open and is not kept).  At the start of a line the indentation opens
or closes blocks; a line that is blank or only a comment does neither.  Every other token is the lexeme at the cursor.

A step that refuses an indentation still returns the lexer as far as it got.
-/
namespace Statechart

open Diagnostic (BadIndentation)

structure Lexer where
  cursor : Cursor
  emitted : List Token := []
  blocks : List Nat := []
deriving DecidableEq, Repr

/-- What a step that reads indentation leaves. -/
structure Lexer.Progress where
  lexer : Lexer
  refusal : Option BadIndentation := none
deriving DecidableEq, Repr

namespace Lexer

def start (t : Text) : Lexer where
  cursor := Cursor.start t

/-- The tokens so far, in order. -/
def tokens (lx : Lexer) : List Token := lx.emitted.reverse

/-- The widths of the open blocks, the ground level first. -/
def stack (lx : Lexer) : List Nat := 0 :: lx.blocks.reverse

/-- The width of the innermost open block. -/
def indent (lx : Lexer) : Nat := lx.blocks.headD 0

def emit (lx : Lexer) (t : Token) : Lexer := { lx with emitted := t :: lx.emitted }

def advance (lx : Lexer) : Lexer := { lx with cursor := lx.cursor.advance }

def advanceBy (lx : Lexer) (n : Nat) : Lexer := { lx with cursor := lx.cursor.advanceBy n }

def skip (lx : Lexer) (p : Char → Bool) : Lexer := { lx with cursor := lx.cursor.skip p }

/-- The longest run ahead of characters that satisfy `p`, and the lexer behind it. -/
def read (lx : Lexer) (p : Char → Bool) : Text × Lexer := (lx.cursor.run p, lx.skip p)

def skipBlanks (lx : Lexer) : Lexer := lx.skip isBlank

def readName (lx : Lexer) : Text × Lexer := lx.read isNameChar

def readComment (lx : Lexer) : Text × Lexer := lx.read (fun c => !isLineEnd c)

/-- The name that the character at the cursor introduces; without one the lexer does not move. -/
def readLabel (lx : Lexer) : Option Text × Lexer :=
  match label? lx.cursor.ahead with
  | none => (none, lx)
  | some (skipped, name) => (some name, lx.advanceBy (skipped + name.length))

/-- Whether the line is blank from a place of the text on. -/
def isBlankFrom (lx : Lexer) (place : Nat) : Bool := isBlankLine (lx.cursor.text.drop place)

/-- The last token, if it stands on the line of the cursor and is not layout. -/
def previousOnLine (lx : Lexer) : Option Token :=
  match lx.emitted with
  | [] => none
  | t :: _ => if t.line = lx.cursor.line ∧ t.kind.isLayout = false then some t else none

/-- Closes `n` blocks at a place. -/
def close (lx : Lexer) (n : Nat) (line col : Int) : Lexer where
  cursor := lx.cursor
  emitted := List.replicate n ⟨.dedent, line, col, none⟩ ++ lx.emitted
  blocks := lx.blocks.drop n

/-- The refusal of a line of this width at the cursor. -/
def refuse (lx : Lexer) (width : Nat) : BadIndentation where
  width := width
  stack := lx.stack.map Int.ofNat
  line := lx.cursor.line
  source := some lx.cursor.text

/-- Opens or closes the blocks that a line of this width opens or closes. -/
def settle (lx : Lexer) (width : Nat) : Progress :=
  if lx.indent < width then
    ⟨{ lx with emitted := ⟨.indent, lx.cursor.line, 1, none⟩ :: lx.emitted, blocks := width :: lx.blocks }, none⟩
  else if width < lx.indent then
    if width ∈ lx.stack then
      ⟨lx.close (lx.blocks.takeWhile (fun w => decide (width < w))).length lx.cursor.line 1, none⟩
    else ⟨lx, some (lx.refuse width)⟩
  else ⟨lx, none⟩

/-- Measures the indentation at the cursor.  Only spaces count: a tabulator ends the measure. -/
def readIndentation (lx : Lexer) : Progress :=
  if isBlankLine (lx.skip (· == ' ')).cursor.ahead then ⟨lx.skip (· == ' '), none⟩
  else (lx.skip (· == ' ')).settle (lx.cursor.run (· == ' ')).length

/-- Whether the last token on the line is an arrow. -/
def afterArrow (lx : Lexer) : Bool :=
  match lx.previousOnLine with
  | none => false
  | some t => t.kind == .arrow

/-- Emits a lexeme at the cursor and moves behind it. -/
def take (lx : Lexer) (x : Lexeme) : Lexer :=
  (lx.advanceBy x.length).emit ⟨x.kind, lx.cursor.line, lx.cursor.column, x.text⟩

/-- Closes all blocks at the cursor. -/
def closeAll (lx : Lexer) : Lexer := lx.close lx.blocks.length lx.cursor.line lx.cursor.column

theorem settle_cursor (lx : Lexer) (width : Nat) : (lx.settle width).lexer.cursor = lx.cursor := by
  unfold settle
  split
  · rfl
  · split
    · split <;> rfl
    · rfl

theorem readIndentation_cursor (lx : Lexer) : lx.readIndentation.lexer.cursor = lx.cursor.skip (· == ' ') := by
  unfold readIndentation
  split
  · rfl
  · rw [settle_cursor]; rfl

theorem length_take_lt (lx : Lexer) (b : Bool) {c : Char} {rest : Text} (h : lx.cursor.ahead = c :: rest) :
    (lx.take (Lexeme.first b c rest)).cursor.ahead.length < lx.cursor.ahead.length := by
  show (lx.cursor.advanceBy _).ahead.length < _
  have := Lexeme.length_first_pos b c rest
  rw [Cursor.advanceBy_ahead, List.length_drop, h, List.length_cons]
  omega

/-- The layout step: only at the start of a line is the indentation read. -/
def enterLine (lx : Lexer) (lineStart : Bool) : Progress :=
  if lineStart then lx.readIndentation else ⟨lx, none⟩

theorem length_enterLine_le (lx : Lexer) (b : Bool) :
    (lx.enterLine b).lexer.cursor.ahead.length ≤ lx.cursor.ahead.length := by
  unfold enterLine
  split
  · rw [readIndentation_cursor]; exact Cursor.length_skip_le _ _
  · exact Nat.le_refl _

/-- All tokens from the cursor on; at the end of the text every open block is closed. -/
def tokenizeFrom (lineStart : Bool) (lx : Lexer) : Progress :=
  if lx.cursor.ahead = [] then ⟨lx.closeAll, none⟩
  else
    let entered := lx.enterLine lineStart
    match entered.refusal with
    | some e => ⟨entered.lexer, some e⟩
    | none =>
      let here := entered.lexer.skipBlanks
      match _h : here.cursor.ahead with
      | [] => ⟨here.closeAll, none⟩
      | c :: rest => tokenizeFrom (c == '\n') (here.take (Lexeme.first here.afterArrow c rest))
termination_by lx.cursor.ahead.length
decreasing_by
  exact Nat.lt_of_lt_of_le (length_take_lt _ _ _h)
    (Nat.le_trans (Cursor.length_skip_le _ _) (length_enterLine_le lx lineStart))

/-- The rest of the text, from the cursor, which stands at the start of a line. -/
def tokenize (lx : Lexer) : Progress := lx.tokenizeFrom true

end Lexer

def tokenize (t : Text) : Except BadIndentation (List Token) :=
  match (Lexer.start t).tokenize with
  | ⟨lx, none⟩ => .ok lx.tokens
  | ⟨_, some e⟩ => .error e

end Statechart
