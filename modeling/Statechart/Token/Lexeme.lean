import Statechart.Token.Basic
/-!
# Lexeme — the first token of a text

What token a text begins with is decided by its first characters, and by whether the token before it on the line is an
arrow: only there is `#` the start of a target, elsewhere it begins a comment.  A lexeme is a token without its place,
with the number of characters it covers.
-/
namespace Statechart

/-- The characters that names are made of. -/
def isNameChar (c : Char) : Bool := c.isAlphanum || c == '_' || c == '.'

/-- The characters that end a line. -/
def isLineEnd (c : Char) : Bool := c == '\n' || c == '\r'

/-- The characters that are skipped between tokens. -/
def isBlank (c : Char) : Bool := c == ' ' || c == '\t' || c == '\r'

/-- The characters that may stand between `;` or `>` and the name it introduces. -/
def isFiller (c : Char) : Bool := !isNameChar c && !isLineEnd c

/-- Whether a text is blank, or a comment, up to the end of its first line. -/
def isBlankLine (t : Text) : Bool :=
  match t.dropWhile isBlank with
  | [] => true
  | c :: _ => c == '\n' || c == '#'

/-- The name that follows a one-character marker on its line, with the number of characters before it, the marker's
included. -/
def label? (t : Text) : Option (Nat × Text) :=
  let name := (t.tail.dropWhile isFiller).takeWhile isNameChar
  if name = [] then none else some ((t.tail.takeWhile isFiller).length + 1, name)

structure Lexeme where
  kind : TokenKind
  text : Option Text
  length : Nat
deriving DecidableEq, Repr

namespace Lexeme

/-- The kinds that one character stands for. -/
def marker? (c : Char) : Option TokenKind :=
  if c = '&' then some .parallel else if c = '$' then some .final else if c = '*' then some .initial else none

/-- The kinds whose text is the next name. -/
def labelKind? (c : Char) : Option TokenKind :=
  if c = ';' then some .condition else if c = '>' then some .action else none

/-- A target outside the tree of the state it is written in: `#` and a name. -/
def target (rest : Text) : Lexeme :=
  let name := rest.takeWhile isNameChar
  ⟨.identifier, some ('#' :: name), name.length + 1⟩

/-- From `#` to the end of the line. -/
def comment (rest : Text) : Lexeme :=
  let body := rest.takeWhile (fun c => !isLineEnd c)
  ⟨.comment, some ('#' :: body), body.length + 1⟩

/-- A guard or an action; without a name the marker has no meaning. -/
def label (kind : TokenKind) (c : Char) (rest : Text) : Lexeme :=
  match label? (c :: rest) with
  | some (skipped, name) => ⟨kind, some name, skipped + name.length⟩
  | none => ⟨.unknown, some [c], 1⟩

/-- A name, an arrow, or a character with no meaning. -/
def word (c : Char) (rest : Text) : Lexeme :=
  if c = '-' ∧ rest.head? = some '>' then ⟨.arrow, none, 2⟩
  else if isNameChar c then
    let name := c :: rest.takeWhile isNameChar
    ⟨.identifier, some name, name.length⟩
  else ⟨.unknown, some [c], 1⟩

/-- Whether a name begins here. -/
def startsName (t : Text) : Bool :=
  match t with
  | [] => false
  | c :: _ => isNameChar c

/-- The lexeme that the text `c :: rest` begins with. -/
def first (afterArrow : Bool) (c : Char) (rest : Text) : Lexeme :=
  if c = '\n' then ⟨.newline, none, 1⟩
  else if c = '#' then if afterArrow && startsName rest then target rest else comment rest
  else match marker? c with
    | some kind => ⟨kind, none, 1⟩
    | none => match labelKind? c with
      | some kind => label kind c rest
      | none => word c rest

theorem length_label_pos (kind : TokenKind) (c : Char) (rest : Text) : 0 < (label kind c rest).length := by
  unfold label label?
  by_cases h : ((c :: rest).tail.dropWhile isFiller).takeWhile isNameChar = []
  · simp only [h, ↓reduceIte]
    exact Nat.one_pos
  · simp only [h, ↓reduceIte]
    omega

theorem length_word_pos (c : Char) (rest : Text) : 0 < (word c rest).length := by
  unfold word
  split
  · exact Nat.two_pos
  · split
    · exact Nat.succ_pos _
    · exact Nat.one_pos

/-- **A lexeme covers a character.** -/
theorem length_first_pos (afterArrow : Bool) (c : Char) (rest : Text) : 0 < (first afterArrow c rest).length := by
  unfold first
  split
  · exact Nat.one_pos
  · split
    · split <;> exact Nat.succ_pos _
    · split
      · exact Nat.one_pos
      · split
        · exact length_label_pos _ _ _
        · exact length_word_pos _ _

end Lexeme
end Statechart
