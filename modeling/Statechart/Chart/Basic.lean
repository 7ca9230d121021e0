import Statechart.Doc
/-!
# Chart — hierarchical states and their transitions

A chart is a tree of states.  A state has an id, a kind, the default child, a mark that it is its parent's default
child, its children by name and its handlers by event; all but the first two may be absent, and an absent mapping is
not an empty one.  The empty event holds the transitions that need no event.
-/
namespace Statechart

/-- How a state behaves while it is active. -/
inductive StateKind where
  /-- It has no children. -/
  | atomic
  /-- One of its children is active. -/
  | compound
  /-- All of its children are active. -/
  | parallel
  | final
deriving DecidableEq, Repr

namespace StateKind

def name : StateKind → Text
  | atomic => "atomic".toList
  | compound => "compound".toList
  | parallel => "parallel".toList
  | final => "final".toList

def all : List StateKind := [atomic, compound, parallel, final]

def ofName? (t : Text) : Option StateKind := all.find? (fun k => k.name == t)

end StateKind

/-- A move to a target state, if its guard holds, running its actions in order. -/
structure Transition where
  target : Text
  cond : Option Text := none
  actions : Option (List Text) := none
deriving DecidableEq, Repr

/-- The transitions of one event. -/
abbrev Handler := Keyed.Slot Transition

/-- A state with the states inside it. -/
structure Node where
  id : Text
  kind : StateKind
  initial : Option Text := none
  isInitial : Option Bool := none
  states : Option (List (Text × Node)) := none
  on : Option (List (Text × Handler)) := none
deriving Repr

namespace Transition

def toDoc (t : Transition) : Doc :=
  .map ([("target".toList, .text t.target)] ++ Doc.optional "cond".toList .text t.cond ++
    Doc.optional "actions".toList (fun names => .list (names.map .text)) t.actions)

end Transition

namespace Node

/-- The children in order, none if there are none. -/
def children (n : Node) : Keyed Node := n.states.getD []

def child? (n : Node) (name : Text) : Option Node := Keyed.get? n.children name

/-- Follows names from child to child. -/
def follow : Node → List Text → Option Node
  | n, [] => some n
  | n, name :: rest => match n.child? name with
    | none => none
    | some c => follow c rest

/-- The state below this one at a path of names with dots between them. -/
def find (n : Node) (path : Text) : Option Node := n.follow (Text.splitAt '.' path)

/-- The transitions that need no event, in order. -/
def transients (n : Node) : List Transition :=
  match Keyed.get? (n.on.getD []) Keyed.collecting with
  | none => []
  | some handler => handler.values

/-- The document of a handler: one transition, or a sequence of them. -/
def handlerDoc : Handler → Doc
  | .one t => t.toDoc
  | .all ts => .list (ts.map Transition.toDoc)

mutual

/-- The document of a state: its id and kind, then what else there is, always in the same order. -/
def toDoc : Node → Doc
  | ⟨id, kind, initial, isInitial, states, on⟩ =>
    .map ([("id".toList, .text id), ("type".toList, .text kind.name)] ++
      Doc.optional "initial".toList .text initial ++
      Doc.optional "isInitial".toList .flag isInitial ++
      statesDoc states ++
      Doc.optional "on".toList (fun hs => .map (hs.map (fun h => (h.1, handlerDoc h.2)))) on)

def statesDoc : Option (List (Text × Node)) → List (Text × Doc)
  | none => []
  | some children => [("states".toList, .map (childDocs children))]

def childDocs : List (Text × Node) → List (Text × Doc)
  | [] => []
  | (name, n) :: rest => (name, n.toDoc) :: childDocs rest

end

end Node
end Statechart
