import Statechart.Rule.Basic
/-!
# Grammar — the rules of the notation

    transition := [IDENTIFIER] -> IDENTIFIER [CONDITION] {ACTION}     on one line, guarded if it has no event
    heading    := IDENTIFIER [&] [$] [*]
    state      := heading INDENT {statement} DEDENT | heading
    statement  := transition | state
    chart      := [INDENT] state {state} [DEDENT]                     up to the end of the input

A statement holds states and a state holds statements.  The rules for what is inside a state are therefore rules over
the rule for a statement (`stateOf`, `statementOf`), and nesting is counted: `statement n` reads states nested less
than `n` deep.  A state inside a state is at least two tokens further on, so no list of tokens nests deeper than it is
long.
-/
namespace Statechart
namespace Grammar

open Diagnostic (Reason)
open Matcher (look fail unfit remark)

/-- A name, which is absent from a token without text. -/
def identifier : Rule (Option Text) := (Rule.expect .identifier).map Token.text

def condition : Rule (Option Text) := (Rule.expect .condition).map Token.text

def action : Rule (Option Text) := (Rule.expect .action).map Token.text

def arrow : Rule Token := Rule.expect .arrow

def indent : Rule Token := Rule.expect .indent

def dedent : Rule Token := Rule.expect .dedent

def parallelMarker : Rule Token := Rule.expect .parallel

def finalMarker : Rule Token := Rule.expect .final

def initialMarker : Rule Token := Rule.expect .initial

/-- The line of a token; where there is none, no line. -/
def lineOf : Option Token → Int
  | none => 0
  | some t => t.line

/-- Whether a token is a guard on a line. -/
def isGuardOn (line : Int) : Option Token → Bool
  | none => false
  | some t => t.kind == .condition && t.line == line

/-- Goes on with a text that has to be there. -/
def present : Option Text → Matcher Text
  | none => unfit
  | some t => pure t

/-- The entry of a transition line, whose names and actions have to be there. -/
def entryOf (event : Option (Option Text)) (target cond : Option Text) (actions : List (Option Text)) :
    Matcher Entry := do
  let target ← present target
  let event ← present (event.getD (some Keyed.collecting))
  let actions ← actions.mapM present
  return ⟨event, { target, cond, actions := if actions.isEmpty then none else some actions }⟩

/-- A transition line.  A bare name with an arrow on the next line is a state and then a transition. -/
def transition : Rule Entry :=
  ⟨"transition".toList, do
    let line := lineOf (← look)
    let event ← identifier.run.optional
    let _ ← (arrow.onLine line).run
    let target ← (identifier.onLine line).run
    let guarded := isGuardOn line (← look)
    if event.join.getD [] = [] ∧ guarded = false then
      fail (.unguarded target)
    else
      let cond ← (condition.onLine line).run.optional
      let actions ← (action.onLine line).run.many
      entryOf event target cond.join actions⟩

/-- The heading at a token. -/
def headingAt (token : Token) : Matcher Heading := do
  let name ← identifier.run
  let parallel ← parallelMarker.run.optional
  let final ← finalMarker.run.optional
  let initial ← initialMarker.run.optional
  let name ← present name
  return ⟨name, token, parallel.isSome, final.isSome, initial.isSome⟩

def heading : Rule Heading :=
  ⟨"state_header".toList, do
    match ← look with
    | none => fail (.wanted .identifier)
    | some token => headingAt token⟩

def stateWithBody (statement : Rule Item) : Rule Draft :=
  ⟨"state_with_body".toList, do
    let heading ← heading.run
    let _ ← indent.run
    let body ← statement.run.many
    let _ ← dedent.run
    return { heading, body }⟩

def stateNameOnly : Rule Draft :=
  ⟨"state_name_only".toList, do
    let heading ← heading.run
    return { heading }⟩

/-- A state, assembled, that holds statements. -/
def stateOf (statement : Rule Item) : Rule Node :=
  ⟨"state".toList, do
    let draft ← (Rule.oneOf [stateWithBody statement, stateNameOnly]).run
    remark (Assembly.remarks draft)
    return Assembly.assemble draft⟩

/-- A transition or a state that holds statements. -/
def statementOf (statement : Rule Item) : Rule Item :=
  (Rule.oneOf [transition.map Item.entry, (stateOf statement).map Item.child]).named "statement".toList

/-- A statement whose states are nested less than `n` deep. -/
def statementUpTo : Nat → Rule Item
  | 0 => ⟨"statement".toList, unfit⟩
  | n + 1 => ⟨"statement".toList, fun tokens pos => (statementOf (statementUpTo n)).run tokens pos⟩

theorem statementUpTo_succ (n : Nat) : statementUpTo (n + 1) = statementOf (statementUpTo n) := rfl

/-- A transition or a state.  The tokens themselves bound the nesting. -/
def statement : Rule Item :=
  ⟨"statement".toList, fun tokens pos => (statementUpTo (tokens.size + 1)).run tokens pos⟩

def state : Rule Node := stateOf statement

/-- The end of the block a whole chart stands in, if it stands in one. -/
def closeLead : Option Token → Matcher Unit
  | none => pure ()
  | some _ => do
    let _ ← dedent.run
    return ()

/-- The outermost states of a chart. -/
def chart : Rule (List Node) :=
  ⟨"statechart".toList, do
    let lead ← indent.run.optional
    let first ← state.run
    let rest ← state.run.many
    closeLead lead
    Rule.endOfInput.run
    return first :: rest⟩

/-- The tokens the grammar sees. -/
def visible (tokens : List Token) : Array Token := (tokens.filter (fun t => !t.kind.isIgnored)).toArray

end Grammar
end Statechart
