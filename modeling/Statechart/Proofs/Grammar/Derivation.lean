import Statechart.Chart.Assembly
/-!
# Derivation — how a list of tokens is a chart

    chart      := state {state} | INDENT state {state} DEDENT
    state      := heading [INDENT {transition | state} DEDENT]
    heading    := IDENTIFIER [&] [$] [*]
    transition := [IDENTIFIER] -> IDENTIFIER [CONDITION] {ACTION}     on one line, guarded if it has no event

A derivation is a tree of tokens.  Its tokens in order are what it derives, it is valid when every token has the kind
the grammar asks for there, and its states are assembled from the bottom up.  Nothing here says how a derivation is
found.

The grammar is ambiguous: `b -> c; ok` is a transition on the event `b`, or a state `b` and a transition that needs no
event.  A derivation is eager when it never takes the second reading.
-/
namespace Statechart

namespace Token

/-- The text of a token, empty if it has none. -/
def word (t : Token) : Text := t.text.getD []

/-- A name, a guard or an action carries a text that is not empty. -/
def Worded (t : Token) : Prop := t.kind = .identifier ∨ t.kind = .condition ∨ t.kind = .action → t.word ≠ []

instance (t : Token) : Decidable t.Worded := inferInstanceAs (Decidable (_ → _))

theorem Worded.text_eq {t : Token} (h : t.Worded)
    (hk : t.kind = .identifier ∨ t.kind = .condition ∨ t.kind = .action) : t.text = some t.word := by
  have hne := h hk
  unfold word at hne ⊢
  cases ht : t.text with
  | none => simp [ht] at hne
  | some s => rfl

end Token

namespace Grammar

/-- A name and the markers behind it. -/
structure HeadingTree where
  name : Token
  parallel : Option Token := none
  final : Option Token := none
  initial : Option Token := none

structure TransitionTree where
  event : Option Token
  arrow : Token
  target : Token
  guard : Option Token
  actions : List Token

mutual

inductive StateTree where
  /-- A state that is only named. -/
  | bare (heading : HeadingTree)
  /-- A state with a block of statements between two tokens. -/
  | block (heading : HeadingTree) (opening : Token) (body : BodyTree) (closing : Token)

/-- The statements of a block. -/
inductive BodyTree where
  | nil
  | transition (t : TransitionTree) (rest : BodyTree)
  | state (s : StateTree) (rest : BodyTree)

end

/-- The outermost states, and the two tokens around them if they stand in a block. -/
structure ChartTree where
  frame : Option (Token × Token) := none
  first : StateTree
  rest : List StateTree := []

namespace HeadingTree

def markers (h : HeadingTree) : List Token := h.parallel.toList ++ (h.final.toList ++ h.initial.toList)

def tokens (h : HeadingTree) : List Token := h.name :: h.markers

structure Valid (h : HeadingTree) : Prop where
  name : h.name.kind = .identifier
  parallel : ∀ t ∈ h.parallel, t.kind = .parallel
  final : ∀ t ∈ h.final, t.kind = .final
  initial : ∀ t ∈ h.initial, t.kind = .initial

def value (h : HeadingTree) : Heading where
  name := h.name.word
  token := h.name
  parallel := h.parallel.isSome
  final := h.final.isSome
  initial := h.initial.isSome

end HeadingTree

namespace TransitionTree

def tail (l : TransitionTree) : List Token := l.target :: (l.guard.toList ++ l.actions)

def tokens (l : TransitionTree) : List Token := l.event.toList ++ l.arrow :: l.tail

structure Valid (l : TransitionTree) : Prop where
  event : ∀ t ∈ l.event, t.kind = .identifier
  arrow : l.arrow.kind = .arrow
  target : l.target.kind = .identifier
  guard : ∀ t ∈ l.guard, t.kind = .condition
  actions : ∀ t ∈ l.actions, t.kind = .action
  line : ∀ t ∈ l.tokens, t.line = l.arrow.line
  guarded : l.event = none → l.guard ≠ none

def value (l : TransitionTree) : Entry where
  event := (l.event.map Token.word).getD Keyed.collecting
  transition :=
    { target := l.target.word
      cond := l.guard.map Token.word
      actions := if l.actions.isEmpty then none else some (l.actions.map Token.word) }

end TransitionTree

/-- Whether an arrow on the line of a name comes first. -/
def ArrowBehind (name : Token) (following : List Token) : Prop :=
  ∃ a ∈ following.head?, a.kind = .arrow ∧ a.line = name.line

def StateTree.heading : StateTree → HeadingTree
  | .bare h => h
  | .block h _ _ _ => h

mutual

def StateTree.tokens : StateTree → List Token
  | .bare h => h.tokens
  | .block h opening body closing => h.tokens ++ opening :: (body.tokens ++ [closing])

def BodyTree.tokens : BodyTree → List Token
  | .nil => []
  | .transition l rest => l.tokens ++ rest.tokens
  | .state s rest => s.tokens ++ rest.tokens

end

mutual

def StateTree.Valid : StateTree → Prop
  | .bare h => h.Valid
  | .block h opening body closing => h.Valid ∧ opening.kind = .indent ∧ body.Valid ∧ closing.kind = .dedent

def BodyTree.Valid : BodyTree → Prop
  | .nil => True
  | .transition l rest => l.Valid ∧ rest.Valid
  | .state s rest => s.Valid ∧ rest.Valid

end

mutual

/-- In every block, a name with an arrow behind it on its line is never the name of a state.  (Behind an arrow it is a
target in every derivation, so it is the event of a transition wherever there is a choice.) -/
def StateTree.Eager : StateTree → Prop
  | .bare _ => True
  | .block _ _ body _ => body.Eager

def BodyTree.Eager : BodyTree → Prop
  | .nil => True
  | .transition _ rest => rest.Eager
  | .state s rest => s.Eager ∧ ¬ ArrowBehind s.heading.name (s.tokens ++ rest.tokens).tail ∧ rest.Eager

end

mutual

/-- The state, assembled from what is in its block. -/
def StateTree.node : StateTree → Node
  | .bare h => Assembly.assemble { heading := h.value }
  | .block h _ body _ => Assembly.assemble { heading := h.value, body := body.items }

def BodyTree.items : BodyTree → List Item
  | .nil => []
  | .transition l rest => .entry l.value :: rest.items
  | .state s rest => .child s.node :: rest.items

end

mutual

/-- How many blocks stand inside each other. -/
def StateTree.depth : StateTree → Nat
  | .bare _ => 0
  | .block _ _ body _ => body.depth + 1

def BodyTree.depth : BodyTree → Nat
  | .nil => 0
  | .transition _ rest => rest.depth
  | .state s rest => max s.depth rest.depth

end

namespace ChartTree

def states (d : ChartTree) : List StateTree := d.first :: d.rest

def tokens (d : ChartTree) : List Token :=
  match d.frame with
  | none => d.states.flatMap StateTree.tokens
  | some (opening, closing) => opening :: (d.states.flatMap StateTree.tokens ++ [closing])

structure Valid (d : ChartTree) : Prop where
  states : ∀ s ∈ d.states, s.Valid
  frame : ∀ p ∈ d.frame, p.1.kind = .indent ∧ p.2.kind = .dedent

def Eager (d : ChartTree) : Prop := ∀ s ∈ d.states, s.Eager

def nodes (d : ChartTree) : List Node := d.states.map StateTree.node

end ChartTree

mutual

/-- **Nesting costs tokens.** -/
theorem StateTree.depth_lt : ∀ s : StateTree, s.depth < s.tokens.length
  | .bare h => by simp [StateTree.depth, StateTree.tokens, HeadingTree.tokens]
  | .block h opening body closing => by
    have := body.depth_le
    simp only [StateTree.depth, StateTree.tokens, HeadingTree.tokens, List.length_append, List.length_cons]
    omega

theorem BodyTree.depth_le : ∀ b : BodyTree, b.depth ≤ b.tokens.length
  | .nil => Nat.le_refl 0
  | .transition l rest => by
    have := rest.depth_le
    simp only [BodyTree.depth, BodyTree.tokens, List.length_append]
    omega
  | .state s rest => by
    have := s.depth_lt
    have := rest.depth_le
    simp only [BodyTree.depth, BodyTree.tokens, List.length_append]
    omega

end

theorem StateTree.tokens_eq (s : StateTree) : ∃ rest, s.tokens = s.heading.name :: rest := by
  cases s with
  | bare h => exact ⟨_, rfl⟩
  | block h opening body closing => exact ⟨_, rfl⟩

theorem StateTree.tokens_ne_nil (s : StateTree) : s.tokens ≠ [] := by
  obtain ⟨rest, hrest⟩ := s.tokens_eq
  rw [hrest]
  exact List.cons_ne_nil _ _

theorem TransitionTree.tokens_ne_nil (l : TransitionTree) : l.tokens ≠ [] := by simp [TransitionTree.tokens]

theorem StateTree.Valid.heading : ∀ {s : StateTree}, s.Valid → s.heading.Valid
  | .bare _, h => h
  | .block _ _ _ _, h => h.1

theorem HeadingTree.Valid.marker {h : HeadingTree} (hv : h.Valid) :
    ∀ t ∈ h.markers, t.kind = .parallel ∨ t.kind = .final ∨ t.kind = .initial := by
  intro t ht
  simp only [HeadingTree.markers, List.mem_append, Option.mem_toList] at ht
  rcases ht with ht | ht | ht
  · exact .inl (hv.parallel t ht)
  · exact .inr (.inl (hv.final t ht))
  · exact .inr (.inr (hv.initial t ht))

/-- What stands behind the name in a state is no arrow. -/
theorem StateTree.Valid.second : ∀ {s : StateTree}, s.Valid → ∀ a ∈ s.tokens.tail.head?, a.kind ≠ .arrow
  | .bare h, hv, a, ha => by
    rcases HeadingTree.Valid.marker hv a (List.mem_of_mem_head? ha) with hk | hk | hk <;> simp [hk]
  | .block h opening body closing, ⟨hv, ho, _, _⟩, a, ha => by
    rw [StateTree.tokens, HeadingTree.tokens, List.cons_append, List.tail_cons, List.head?_append] at ha
    cases hm : h.markers.head? with
    | none =>
      rw [hm] at ha
      obtain rfl : opening = a := Option.some.inj ha
      simp [ho]
    | some m =>
      rw [hm] at ha
      obtain rfl : m = a := Option.some.inj ha
      rcases hv.marker m (List.mem_of_mem_head? hm) with hk | hk | hk <;> simp [hk]

/-- A statement begins with a name, or is a transition that needs no event. -/
theorem BodyTree.Valid.head : ∀ {b : BodyTree}, b.Valid → ∀ a ∈ b.tokens.head?,
    a.kind = .identifier ∨ ∃ l rest, b = .transition l rest ∧ l.event = none ∧ l.arrow = a
  | .nil, _, a, ha => by cases ha
  | .transition l rest, ⟨hl, _⟩, a, ha => by
    rw [BodyTree.tokens, TransitionTree.tokens] at ha
    cases he : l.event with
    | none =>
      rw [he] at ha
      exact .inr ⟨l, rest, rfl, he, Option.some.inj ha⟩
    | some t =>
      rw [he] at ha
      obtain rfl : t = a := Option.some.inj ha
      exact .inl (hl.event t he)
  | .state s rest, ⟨hs, _⟩, a, ha => by
    obtain ⟨tl, htl⟩ := s.tokens_eq
    rw [BodyTree.tokens, htl] at ha
    obtain rfl : s.heading.name = a := Option.some.inj ha
    exact .inl hs.heading.name

/-- **The one ambiguity**: an arrow stands behind a state's name on its line only where a bare name is followed by a
transition that needs no event. -/
theorem ArrowBehind.shape {s : StateTree} {rest : BodyTree} (hs : s.Valid) (hr : rest.Valid)
    (h : ArrowBehind s.heading.name (s.tokens ++ rest.tokens).tail) :
    ∃ name l rest', s = .bare { name } ∧ rest = .transition l rest' ∧ l.event = none ∧ l.arrow.line = name.line := by
  obtain ⟨a, ha, hka, hla⟩ := h
  obtain ⟨tl, htl⟩ := s.tokens_eq
  cases tl with
  | cons x tl =>
    refine absurd hka (hs.second a ?_)
    rw [htl] at ha ⊢
    exact ha
  | nil =>
    rw [htl] at ha
    rcases hr.head a ha with hk | ⟨l, rest', rfl, he, rfl⟩
    · rw [hka] at hk
      cases hk
    · cases s with
      | bare d =>
        obtain ⟨name, parallel, final, initial⟩ := d
        have hm : parallel.toList ++ (final.toList ++ initial.toList) = [] := (List.cons.inj htl).2
        simp only [List.append_eq_nil_iff, Option.toList_eq_nil_iff] at hm
        obtain ⟨rfl, rfl, rfl⟩ := hm
        exact ⟨name, l, rest', rfl, rfl, he, hla⟩
      | block d opening b closing =>
        have hm : d.markers ++ opening :: (b.tokens ++ [closing]) = [] := (List.cons.inj htl).2
        simp at hm

end Grammar
end Statechart
