import Statechart.Chart.Basic
import Statechart.Token.Basic
/-!
# Assembly — from what was read of a state to the state

What is read of a state is its heading (a name and markers) and the items of its body in order: transitions, and
states already assembled.  Assembling finds its kind, its handlers, its children by name and its default child.  Two
things are remarked on and kept: a child declared again, which replaces the earlier one in its place, and several
children marked as the default one, of which the last counts.
-/
namespace Statechart

/-- A state's name with its markers. -/
structure Heading where
  name : Text
  token : Token
  parallel : Bool := false
  final : Bool := false
  initial : Bool := false
deriving DecidableEq, Repr

/-- A transition under its event, which is empty when it needs none. -/
structure Entry where
  event : Text
  transition : Transition
deriving DecidableEq, Repr

inductive Item where
  | entry (e : Entry)
  | child (n : Node)
deriving Repr

/-- What is read of a state. -/
structure Draft where
  heading : Heading
  body : List Item := []
deriving Repr

/-- Something to tell the author of a chart. -/
inductive Remark where
  | repeatedChild (state child : Text)
  | severalInitial (state : Text) (children : List Text)
deriving DecidableEq, Repr

namespace Remark

def message : Remark → Text
  | repeatedChild state child =>
    "State ".toList ++ Text.quoted state ++ " declares child ".toList ++ Text.quoted child ++
      " more than once; keeping the last".toList
  | severalInitial state children =>
    "State ".toList ++ Text.quoted state ++ " marks ".toList ++ Text.ofNat children.length ++
      " children as initial (".toList ++ Text.join ", ".toList children ++ "); using ".toList ++
      Text.quoted (children.getLastD [])

end Remark

namespace Assembly

/-- Final beats parallel; else children make a state compound. -/
def classify (h : Heading) (children : Nat) : StateKind :=
  if h.final then .final
  else if h.parallel then .parallel
  else if 0 < children then .compound
  else .atomic

/-- The handlers of some transitions, absent if there are none. -/
def handlers (entries : List Entry) : Option (Keyed Handler) :=
  if entries.isEmpty then none else some (Keyed.merge (entries.map (fun e => [(e.event, e.transition)])))

/-- Children by name, absent if there are none; the last of one name counts. -/
def childrenByName (children : List Node) : Option (Keyed Node) :=
  if children.isEmpty then none else some (Keyed.ofEntries (children.map (fun c => (c.id, c))))

/-- A remark for each child whose name an earlier child had; `seen` are the names so far. -/
def repeatedAfter (state : Text) : List Text → List Node → List Remark
  | _, [] => []
  | seen, c :: rest =>
    if seen.contains c.id then .repeatedChild state c.id :: repeatedAfter state seen rest
    else repeatedAfter state (c.id :: seen) rest

def repeated (state : Text) (children : List Node) : List Remark := repeatedAfter state [] children

def marked (n : Node) : List Text := (n.children.filter (fun c => c.2.isInitial == some true)).map Prod.fst

/-- The state with its default child: the last one marked, else the first.  Without children there is none to find. -/
def withInitial (n : Node) : Node :=
  match n.children with
  | [] => n
  | (first, _) :: _ => { n with initial := some ((marked n).getLastD first) }

def severalMarked (n : Node) : List Remark :=
  if 1 < (marked n).length then [.severalInitial n.id (marked n)] else []

def entriesOf (body : List Item) : List Entry :=
  body.filterMap (fun item => match item with
    | .entry e => some e
    | .child _ => none)

def childrenOf (body : List Item) : List Node :=
  body.filterMap (fun item => match item with
    | .entry _ => none
    | .child n => some n)

/-- The state of a draft before its default child is found. -/
def unsettled (d : Draft) : Node where
  id := d.heading.name
  kind := classify d.heading (childrenOf d.body).length
  isInitial := if d.heading.initial then some true else none
  states := childrenByName (childrenOf d.body)
  on := handlers (entriesOf d.body)

def assemble (d : Draft) : Node := withInitial (unsettled d)

def remarks (d : Draft) : List Remark :=
  repeated d.heading.name (childrenOf d.body) ++ severalMarked (unsettled d)

/-- The outermost state is nobody's default child. -/
def asRoot (n : Node) : Node := { n with isInitial := none }

/-- The state that holds several outermost states, before its default child is found. -/
def synthetic (rootId : Text) (states : List Node) : Node where
  id := rootId
  kind := .compound
  states := childrenByName states

/-- The root of a chart: its one outermost state, or a state that holds them. -/
def root (rootId : Text) : List Node → Node
  | [n] => asRoot n
  | states => withInitial (synthetic rootId states)

def rootRemarks (rootId : Text) : List Node → List Remark
  | [_] => []
  | states => repeated rootId states ++ severalMarked (synthetic rootId states)

end Assembly
end Statechart
