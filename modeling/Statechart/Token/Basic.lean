import Statechart.Text.Quoted
/-!
# Token — the words of the notation

A token is a kind, the place where it begins, and the text that kinds with a text carry.  Lines and columns count from
one; they are integers because a token may be stated by hand at any place.
-/
namespace Statechart

inductive TokenKind where
  /-- A run of letters, digits, `_` and `.`, or such a run after `#` behind an arrow. -/
  | identifier
  /-- The two characters `->`. -/
  | arrow
  /-- The marker `&` of a state whose children are all active. -/
  | parallel
  /-- The marker `$` of a final state. -/
  | final
  /-- The marker `*` of the default child. -/
  | initial
  /-- A guard: `;` and the identifier after it. -/
  | condition
  /-- An action: `>` and the identifier after it. -/
  | action
  /-- From `#` to the end of the line. -/
  | comment
  | newline
  /-- The start of a deeper block. -/
  | indent
  /-- The end of a block. -/
  | dedent
  /-- A character with no meaning where it stands. -/
  | unknown
deriving DecidableEq, Repr

namespace TokenKind

/-- The name a kind is written with. -/
def name : TokenKind → Text
  | identifier => "IDENTIFIER".toList
  | arrow => "TRANSITION_ARROW".toList
  | parallel => "PARALLEL_STATE".toList
  | final => "FINAL_STATE".toList
  | initial => "INITIAL_STATE".toList
  | condition => "CONDITION".toList
  | action => "ACTION".toList
  | comment => "COMMENT".toList
  | newline => "NEWLINE".toList
  | indent => "INDENT".toList
  | dedent => "DEDENT".toList
  | unknown => "UNKNOWN".toList

/-- The kinds, in the order of their declaration. -/
def all : List TokenKind :=
  [identifier, arrow, parallel, final, initial, condition, action, comment, newline, indent, dedent, unknown]

def ofName? (t : Text) : Option TokenKind := all.find? (fun k => k.name == t)

/-- The kinds that show where lines end and blocks begin and end. -/
def isLayout : TokenKind → Bool
  | newline | indent | dedent => true
  | _ => false

/-- The kinds that the grammar does not see: they only separate lines. -/
def isIgnored : TokenKind → Bool
  | comment | newline => true
  | _ => false

/-- **A name names its kind.** -/
theorem ofName?_name (k : TokenKind) : ofName? k.name = some k := by cases k <;> decide +kernel

end TokenKind

structure Token where
  kind : TokenKind
  line : Int
  col : Int
  text : Option Text := none
deriving DecidableEq, Repr

namespace Token

/-- The kind, and the text if there is one: how messages name a token. -/
def describe (t : Token) : Text :=
  match t.text with
  | none => t.kind.name
  | some s => t.kind.name ++ ' ' :: Text.quoted s

/-- The text between quotes, or `None`. -/
def shownText (t : Token) : Text :=
  match t.text with
  | none => "None".toList
  | some s => Text.quoted s

def shown (t : Token) : Text :=
  "Token(".toList ++ t.kind.name ++ ", ".toList ++ t.shownText ++ ", ".toList ++ Text.ofInt t.line ++
    ':' :: Text.ofInt t.col ++ [')']

end Token
end Statechart
