import Statechart.Chart.Assembly
import Statechart.Token.Lexeme
/-!
# Printing — the text of a chart

A state is printed as its id with its markers, its transitions on a line each, and its children, two spaces deeper than
the state.  A chart can be printed if its ids, events, guards and actions are names, and if all that is not printed
follows from what is: the kinds, the default children and the order of the mappings (`WellFormed`).
-/
namespace Statechart

/-- A name that can be written: not empty, and made of name characters. -/
def IsName (w : Text) : Prop := w ≠ [] ∧ ∀ c ∈ w, isNameChar c = true

instance (w : Text) : Decidable (IsName w) :=
  decidable_of_iff (w ≠ [] ∧ w.all isNameChar = true) (by rw [IsName, List.all_eq_true])

/-- A name, or a name behind one `#`. -/
def IsTarget (w : Text) : Prop := IsName w ∨ ∃ name, IsName name ∧ w = '#' :: name

namespace Transition

structure Printable (t : Transition) : Prop where
  target : IsTarget t.target
  cond : ∀ c ∈ t.cond, IsName c
  actions : ∀ names ∈ t.actions, names ≠ [] ∧ ∀ a ∈ names, IsName a

end Transition

/-- What a transition has to satisfy to be printed under its event. -/
structure Entry.Printable (e : Entry) : Prop where
  event : e.event = [] ∨ IsName e.event
  transition : e.transition.Printable
  guarded : e.event = [] → e.transition.cond ≠ none

/-- The empty event holds guarded transitions, any other event one transition. -/
def HandlerFits : Text × Handler → Prop
  | (event, .one t) => IsName event ∧ t.Printable
  | (event, .all ts) => event = [] ∧ ts ≠ [] ∧ ∀ t ∈ ts, t.Printable ∧ t.cond ≠ none

namespace Node

/-- The key of the last child marked as the default one, else of the first child. -/
def defaultChild (children : Keyed Node) : Option Text :=
  ((children.filter (fun c => c.2.isInitial == some true)).map Prod.fst).getLast?.or (children.head?.map Prod.fst)

/-- What a state has to satisfy to be printed, apart from its children. -/
structure Fits (n : Node) : Prop where
  id : IsName n.id
  keys : ∀ cs ∈ n.states, cs ≠ [] ∧ (cs.map Prod.fst).Nodup ∧ ∀ c ∈ cs, c.1 = c.2.id
  compound : n.kind = .compound → n.children ≠ []
  atomic : n.kind = .atomic → n.children = []
  initial : n.initial = defaultChild n.children
  handlers : ∀ hs ∈ n.on, hs ≠ [] ∧ (hs.map Prod.fst).Nodup ∧ ∀ h ∈ hs, HandlerFits h
  marked : n.isInitial ≠ some false

/-- Every state of the tree fits. -/
inductive WellFormed : Node → Prop where
  | intro {n : Node} (fits : n.Fits) (children : ∀ c ∈ n.children, WellFormed c.2) : WellFormed n

/-- The transitions of a state in the order of their events. -/
def entries (n : Node) : List Entry := (n.on.getD []).flatMap (fun h => h.2.values.map (Entry.mk h.1))

theorem Fits.printable_entries {n : Node} (h : n.Fits) : ∀ e ∈ n.entries, e.Printable := by
  intro e he
  obtain ⟨⟨event, handler⟩, hmem, hentry⟩ := List.mem_flatMap.mp he
  obtain ⟨t, ht, rfl⟩ := List.mem_map.mp hentry
  have hfits : HandlerFits (event, handler) := by
    cases hon : n.on with
    | none =>
      rw [hon] at hmem
      cases hmem
    | some hs =>
      rw [hon] at hmem
      exact (h.handlers hs hon).2.2 _ hmem
  cases handler with
  | one t' =>
    obtain ⟨hname, hprintable⟩ := hfits
    rw [List.mem_singleton.mp ht]
    exact ⟨.inr hname, hprintable, fun hnil => absurd hnil hname.1⟩
  | all ts =>
    obtain ⟨hnil, -, hts⟩ := hfits
    exact ⟨.inl hnil, (hts t ht).1, fun _ => (hts t ht).2⟩

end Node

namespace Print

/-- What stands behind the id of a state. -/
def markers (kind : StateKind) (isInitial : Option Bool) : Text :=
  (if kind = .parallel then ['&'] else []) ++ (if kind = .final then ['$'] else []) ++
    (if isInitial = some true then ['*'] else [])

def event (name : Text) : Text := if name = [] then [] else name ++ [' ']

def guard : Option Text → Text
  | none => []
  | some name => ';' :: ' ' :: name

def actions (names : List Text) : Text := names.flatMap (fun a => ' ' :: '>' :: ' ' :: a)

/-- `EVENT -> target; cond > action > action`, the event, the guard and the actions if there are any. -/
def entry (e : Entry) : Text :=
  event e.event ++ '-' :: '>' :: ' ' :: (e.transition.target ++
    (guard e.transition.cond ++ actions (e.transition.actions.getD [])))

def line (depth : Nat) (t : Text) : Text := Text.blanks (2 * depth) ++ t

mutual

/-- The lines of a state. -/
def node (depth : Nat) : Node → List Text
  | ⟨id, kind, _, isInitial, states, on⟩ =>
    line depth (id ++ markers kind isInitial) ::
      (((on.getD []).flatMap (fun h => h.2.values.map (Entry.mk h.1))).map (fun e => line (depth + 1) (entry e)) ++
        block (depth + 1) states)

def block (depth : Nat) : Option (List (Text × Node)) → List Text
  | none => []
  | some children => nodes depth children

def nodes (depth : Nat) : List (Text × Node) → List Text
  | [] => []
  | (_, n) :: rest => node depth n ++ nodes depth rest

end

end Print

def Node.print (n : Node) : Text := Text.unlines (Print.node 0 n)

theorem Print.nodes_eq (depth : Nat) : ∀ cs : List (Text × Node), nodes depth cs = cs.flatMap (fun c => node depth c.2)
  | [] => by rw [nodes, List.flatMap_nil]
  | (_, n) :: rest => by rw [nodes, nodes_eq depth rest, List.flatMap_cons]

theorem Print.node_eq (depth : Nat) (n : Node) :
    node depth n = line depth (n.id ++ markers n.kind n.isInitial) ::
      (n.entries.map (fun e => line (depth + 1) (entry e)) ++
        n.children.flatMap (fun c => node (depth + 1) c.2)) := by
  obtain ⟨id, kind, initial, isInitial, states, on⟩ := n
  rw [node]
  cases states with
  | none => rw [block]; rfl
  | some cs => rw [block, nodes_eq]; rfl

end Statechart
