import Statechart.Doc
import Statechart.Token.Basic
/-!
# Mismatch — why no rule fits

A mismatch is a value, for the parser goes on with another rule when one does not fit.  It keeps the reason, the token
at fault and the place of that token; the words are found only when it is shown.  When every alternative of a choice
failed, the mismatch keeps the mismatch of each and the position each reached, and is shown with the one that got
furthest (`deepest`).
-/
namespace Statechart
namespace Diagnostic

/-- What a rule needed at a place and did not find. -/
inductive Reason where
  /-- A token of a kind. -/
  | wanted (kind : TokenKind)
  /-- The end of the input. -/
  | trailing
  /-- A guard behind a target that no event leads to. -/
  | unguarded (target : Option Text)
  /-- A token on the line of the statement. -/
  | offLine (rule : Text) (line : Int)
  /-- One of several rules. -/
  | noneOf (rules : List Text)
  /-- What a caller says. -/
  | stated (message expected : Text)
deriving DecidableEq, Repr

/-- A reason with the token at fault, none at the end of the input, and its place.  Line zero is no place. -/
structure Report where
  reason : Reason
  found : Option Token := none
  line : Int := 0
  col : Int := 0
deriving DecidableEq, Repr

inductive Mismatch where
  | plain (report : Report)
  /-- Every alternative failed: each with its mismatch and the position it reached. -/
  | choice (report : Report) (alternatives : List Text) (tried : List (Mismatch × Int))
deriving Repr

namespace Reason

/-- Rule names as a choice lists them. -/
def listed (rules : List Text) : Text := Text.join " | ".toList rules

/-- The token at fault in words. -/
def describeFound : Option Token → Text
  | none => "end of input".toList
  | some t => t.describe

def foundLine : Option Token → Int
  | none => 0
  | some t => t.line

/-- What the failing rule wanted. -/
def expected : Reason → Text
  | wanted kind => kind.name
  | trailing => "end of input".toList
  | unguarded _ => TokenKind.condition.name
  | offLine rule _ => rule
  | noneOf rules => listed rules
  | stated _ expected => expected

/-- The reason in words, given the token at fault. -/
def message (found : Option Token) : Reason → Text
  | wanted kind => "Expected ".toList ++ kind.name ++ ", found ".toList ++ describeFound found
  | trailing => "Expected end of input, found ".toList ++ describeFound found
  | unguarded target =>
    "Transient transition to ".toList ++ (match target with
      | none => "None".toList
      | some t => Text.quoted t) ++ " needs a condition, found ".toList ++ describeFound found
  | offLine rule line =>
    "Expected ".toList ++ rule ++ " on line ".toList ++ Text.ofInt line ++ ", found ".toList ++ describeFound found ++
      " on line ".toList ++ Text.ofInt (foundLine found)
  | noneOf rules => "matched none of the rules: ".toList ++ listed rules
  | stated message _ => message

end Reason

namespace Report

/-- A report on the token at a position, if there is one. -/
def on (reason : Reason) : Option Token → Report
  | none => ⟨reason, none, 0, 0⟩
  | some t => ⟨reason, some t, t.line, t.col⟩

def message (r : Report) : Text := r.reason.message r.found

/-- The message, behind the place if there is one. -/
def shown (r : Report) : Text :=
  if r.line = 0 then r.message
  else Text.ofInt r.line ++ ':' :: Text.ofInt r.col ++ ": ".toList ++ r.message

def tokenDoc (t : Token) : Doc :=
  .map ([("type".toList, .text t.kind.name), ("line".toList, .int t.line), ("col".toList, .int t.col)] ++
    Doc.optional "text".toList .text t.text)

def entries (r : Report) : List (Text × Doc) :=
  [("message".toList, .text r.message), ("expected".toList, .text r.reason.expected)] ++
    Doc.optional "found".toList tokenDoc r.found ++
    (if r.line = 0 then [] else [("line".toList, .int r.line), ("col".toList, .int r.col)])

end Report

namespace Mismatch

def report : Mismatch → Report
  | plain r => r
  | choice r _ _ => r

/-- The alternatives tried, with the position each reached. -/
def tried : Mismatch → List (Mismatch × Int)
  | plain _ => []
  | choice _ _ ts => ts

mutual

/-- The mismatch that got furthest, followed through every choice; of several equally far, the first. -/
def deepest : Mismatch → Mismatch
  | plain r => plain r
  | choice r alternatives ts => match deepestOf ts with
    | none => choice r alternatives ts
    | some best => best.1

/-- The deepest mismatch of the alternative that got furthest, and its position. -/
def deepestOf : List (Mismatch × Int) → Option (Mismatch × Int)
  | [] => none
  | (m, pos) :: rest => match deepestOf rest with
    | none => some (m.deepest, pos)
    | some best => if pos < best.2 then some best else some (m.deepest, pos)

end

/-- The report, and for a choice the one of the alternative that got furthest. -/
def shown (m : Mismatch) : Text :=
  match m.tried with
  | [] => m.report.shown
  | _ :: _ => m.report.shown ++ "; closest: ".toList ++ m.deepest.report.shown

/-- The document of a mismatch; the alternatives are listed, what each missed is not. -/
def toDoc : Mismatch → Doc
  | plain r => .map r.entries
  | choice r alternatives _ =>
    .map (r.entries ++ [("alternatives".toList, .list (alternatives.map .text))])

end Mismatch
end Diagnostic
end Statechart
