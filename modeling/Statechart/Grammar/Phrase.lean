import Statechart.Grammar.Basic
/-!
# Phrase — rules as data

A phrase is an expression for a rule: the primitives, the combinators and the rules of the notation by name.  Its rule
gives values of one type, so phrases of any kind combine.
-/
namespace Statechart

/-- What a phrase reads. -/
inductive Value where
  | nothing
  | text (t : Text)
  | token (t : Token)
  | heading (h : Heading)
  | entry (e : Entry)
  | draft (d : Draft)
  | node (n : Node)
  | list (items : List Value)
deriving Repr

/-- What is made of a token that was expected. -/
inductive Take where
  | itself
  | text
  | description
deriving DecidableEq, Repr

/-- The rules of the notation. -/
inductive Named where
  | identifier
  | condition
  | action
  | arrow
  | indent
  | dedent
  | parallelMarker
  | finalMarker
  | initialMarker
  | transition
  | heading
  | stateWithBody
  | stateNameOnly
  | state
  | statement
  | chart
deriving DecidableEq, Repr

inductive Phrase where
  | expect (kind : TokenKind) (take : Take)
  | oneOf (alternatives : List Phrase)
  | optional (p : Phrase)
  | many (p : Phrase)
  | named (name : Text) (p : Phrase)
  | onLine (p : Phrase) (line : Int)
  | endOfInput
  | rule (r : Named)
deriving Repr

namespace Value

def ofText : Option Text → Value
  | none => nothing
  | some t => text t

def ofItem : Item → Value
  | .entry e => entry e
  | .child n => node n

/-- One value or none, as a list. -/
def ofOption (v : Option Value) : Value := list v.toList

end Value

namespace Take

def value : Take → Token → Value
  | itself, t => .token t
  | text, t => .ofText t.text
  | description, t => .text t.describe

end Take

namespace Named

def rule : Named → Rule Value
  | identifier => Grammar.identifier.map .ofText
  | condition => Grammar.condition.map .ofText
  | action => Grammar.action.map .ofText
  | arrow => Grammar.arrow.map .token
  | indent => Grammar.indent.map .token
  | dedent => Grammar.dedent.map .token
  | parallelMarker => Grammar.parallelMarker.map .token
  | finalMarker => Grammar.finalMarker.map .token
  | initialMarker => Grammar.initialMarker.map .token
  | transition => Grammar.transition.map .entry
  | heading => Grammar.heading.map .heading
  | stateWithBody => (Grammar.stateWithBody Grammar.statement).map .draft
  | stateNameOnly => Grammar.stateNameOnly.map .draft
  | state => Grammar.state.map .node
  | statement => Grammar.statement.map .ofItem
  | chart => Grammar.chart.map (fun ns => .list (ns.map .node))

end Named

namespace Phrase

mutual

def toRule : Phrase → Rule Value
  | expect kind take => (Rule.expect kind).map take.value
  | oneOf alternatives => Rule.oneOf (toRules alternatives)
  | optional p => p.toRule.optional.map .ofOption
  | many p => p.toRule.many.map .list
  | named name p => p.toRule.named name
  | onLine p line => p.toRule.onLine line
  | endOfInput => Rule.endOfInput.map (fun _ => .nothing)
  | rule r => r.rule

def toRules : List Phrase → List (Rule Value)
  | [] => []
  | p :: rest => p.toRule :: toRules rest

end

end Phrase
end Statechart
