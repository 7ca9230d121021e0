import Statechart.Chart.Record
import Statechart.Grammar.Basic
import Statechart.Token.Lexer
/-!
# Reading — from a text to its chart

Reading a text gives the root of its chart or the mismatch to report, with the records of the work.  The mismatch
reported is the one of the chart rule, unless a failure was recorded further on.  A text whose indentation cannot be
read has no chart and no mismatch, only a refusal.
-/
namespace Statechart

open Diagnostic (BadIndentation Mismatch)

/-- Why a text has no reading. -/
inductive Refusal where
  | indentation (e : BadIndentation)
  /-- A name or an action is missing from its token. -/
  | unfit
deriving Repr

inductive Reading where
  | tree (root : Node)
  | mismatch (error : Mismatch)
deriving Repr

namespace Reading

def toDoc : Reading → Doc
  | tree root => root.toDoc
  | mismatch error => .map [("error".toList, error.toDoc)]

/-- The mismatch to report: the failure of the rule, or one recorded further on. -/
def reported (f : Failure) (t : Trace) : Mismatch :=
  match t.furthest none with
  | none => f.error
  | some best => if f.pos < best.pos then best.error else f.error

/-- The reading of tokens, and its records. -/
def ofTokens (rootId : Text) (tokens : List Token) : Except Refusal (Reading × List Record) :=
  match Grammar.chart.run (Grammar.visible tokens) 0 with
  | (.unfit, _) => .error .unfit
  | (.failed f, t) =>
    .ok (.mismatch (reported f t), t.remarks.map .remarked ++ [.rejected (reported f t)])
  | (.matched states _, t) =>
    .ok (.tree (Assembly.root rootId states),
      (t.remarks ++ Assembly.rootRemarks rootId states).map .remarked ++
        [.parsed (Assembly.root rootId states).id states.length])

/-- The reading of a text, and its records. -/
def ofText (rootId : Text) (t : Text) : Except Refusal (Reading × List Record) :=
  match tokenize t with
  | .error e => .error (.indentation e)
  | .ok tokens => match ofTokens rootId tokens with
    | .error r => .error r
    | .ok (reading, records) => .ok (reading, .tokenized t.length tokens.length :: records)

end Reading

/-- The id of the root of a chart with several outermost states, when none is asked for. -/
def defaultRootId : Text := "machine".toList

end Statechart
