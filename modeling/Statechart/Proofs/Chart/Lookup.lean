import Statechart.Proofs.Chart.Shape
/-!
# Lookup — a state at the end of its path

A path is cut at its dots, and each part names a child of the state before.  Children have distinct keys at every depth
of a chart that was read, so a path leads to one state, the one that is reached from child to child.  A dot may also
stand in the name of a state.  Then the path of the state has more parts than there are steps down, and it is another
path: only states whose names have no dot are found under their own.
-/
namespace Statechart

open Keyed (keys)

namespace Node

/-- A state is below another one, along the keys of the children on the way. -/
inductive Reaches : Node → List Text → Node → Prop where
  | here (n : Node) : Reaches n [] n
  | child {n c m : Node} {key : Text} {rest : List Text} (member : (key, c) ∈ n.children) (below : Reaches c rest m) :
      Reaches n (key :: rest) m

/-- No two children of a state have the same key. -/
def KeysApart (n : Node) : Prop := (keys n.children).Nodup

theorem Shaped.keysApart {n : Node} (h : n.Shaped) : n.KeysApart := by
  unfold KeysApart children
  cases hs : n.states with
  | none => exact List.nodup_nil
  | some cs => exact (h.states cs hs).2.1

theorem Everywhere.imp {P Q : Node → Prop} (hPQ : ∀ n, P n → Q n) {n : Node} (h : n.Everywhere P) : n.Everywhere Q := by
  induction h with
  | intro here _ ih => exact .intro (hPQ _ here) ih

/-- **Following names leads down the keys**, and nowhere else. -/
theorem follow_eq_some_iff {m : Node} : ∀ {names : List Text} {n : Node}, n.Everywhere KeysApart →
    (n.follow names = some m ↔ n.Reaches names m)
  | [], n, _ => by
    constructor
    · rintro ⟨⟩
      exact .here _
    · rintro ⟨⟩
      rfl
  | name :: rest, n, ⟨here, below⟩ => by
    have hchild : ∀ c, n.child? name = some c ↔ (name, c) ∈ n.children := fun c => Keyed.get?_eq_some_iff here
    rw [follow]
    constructor
    · intro h
      cases hc : n.child? name with
      | none =>
        rw [hc] at h
        cases h
      | some c =>
        rw [hc] at h
        have hmem := (hchild c).1 hc
        exact .child hmem ((follow_eq_some_iff (below _ hmem)).1 h)
    · rintro (_ | ⟨hmem, hrest⟩)
      rw [(hchild _).2 hmem]
      exact (follow_eq_some_iff (below _ hmem)).2 hrest

/-- A path leads to the state at the end of its parts. -/
theorem find_eq_some_iff {n m : Node} (h : n.Everywhere KeysApart) {path : Text} :
    n.find path = some m ↔ n.Reaches (Text.splitAt '.' path) m :=
  follow_eq_some_iff h

theorem Reaches.unique {n m m' : Node} (h : n.Everywhere KeysApart) {names : List Text} (hm : n.Reaches names m)
    (hm' : n.Reaches names m') : m = m' :=
  Option.some.inj (((follow_eq_some_iff h).2 hm).symm.trans ((follow_eq_some_iff h).2 hm'))

end Node

/-- **States of a chart that was read are found under their paths**, as far as no name on the way has a dot, and what is
found under a path is the only state that the parts of the path lead to. -/
theorem ofText_found {rootId t : Text} {root : Node} {records : List Record}
    (h : Reading.ofText rootId t = .ok (.tree root, records)) :
    (∀ names n, names ≠ [] → (∀ name ∈ names, '.' ∉ name) → root.Reaches names n →
      root.find (Text.join ['.'] names) = some n) ∧
    ∀ path n, root.find path = some n →
      root.Reaches (Text.splitAt '.' path) n ∧ ∀ m, root.Reaches (Text.splitAt '.' path) m → m = n := by
  obtain ⟨ts, hts, d, ⟨hd, -, htokens⟩, rfl⟩ := Reading.derivation_of_tree h
  have hw : ∀ t ∈ d.tokens, t.Worded := htokens ▸ Reading.worded_of_seen hts
  have hne : d.nodes ≠ [] := List.cons_ne_nil _ _
  have hsettled : (Assembly.root rootId d.nodes).Everywhere Node.Settled :=
    (Assembly.root_settled hne (hd.settled hw)).1
  have hapart := hsettled.imp fun _ hn => hn.toShaped.keysApart
  constructor
  · intro names n hne hdots hreaches
    rw [Node.find_eq_some_iff hapart, Text.splitAt_join hne hdots]
    exact hreaches
  · intro path n hfound
    have hreaches := (Node.find_eq_some_iff hapart).1 hfound
    exact ⟨hreaches, fun m hm => hm.unique hapart hreaches⟩

theorem ofText_found_nested :
    ∃ root records n, Reading.ofText "machine".toList "r\n  a\n    b".toList = .ok (.tree root, records) ∧
      n.id = ['b'] ∧ root.Reaches [['a'], ['b']] n ∧ root.find "a.b".toList = some n := by
  have htokens : tokenize "r\n  a\n    b".toList = .ok
      [⟨.identifier, 1, 1, some ['r']⟩, ⟨.newline, 1, 2, none⟩, ⟨.indent, 2, 1, none⟩,
        ⟨.identifier, 2, 3, some ['a']⟩, ⟨.newline, 2, 4, none⟩, ⟨.indent, 3, 1, none⟩,
        ⟨.identifier, 3, 5, some ['b']⟩, ⟨.dedent, 3, 6, none⟩, ⟨.dedent, 3, 6, none⟩] := by
    cbv
  have h : ∃ root records n, Reading.ofText "machine".toList "r\n  a\n    b".toList = .ok (.tree root, records) ∧
      n.id = ['b'] ∧ root.Reaches [['a'], ['b']] n := by
    unfold Reading.ofText
    rw [htokens]
    exact ⟨_, _, _, rfl, rfl, .child (.head _) (.child (.head _) (.here _))⟩
  obtain ⟨root, records, n, hread, hid, hreaches⟩ := h
  exact ⟨root, records, n, hread, hid, hreaches,
    (ofText_found hread).1 [['a'], ['b']] n (by decide) (by decide) hreaches⟩

/-- The dot in the name of a state makes its path another one. -/
theorem not_found_dottedName :
    ∃ root records n, Reading.ofText "machine".toList "r\n  a.b".toList = .ok (.tree root, records) ∧
      root.Reaches ["a.b".toList] n ∧ root.find (Text.join ['.'] ["a.b".toList]) = none := by
  have htokens : tokenize "r\n  a.b".toList = .ok
      [⟨.identifier, 1, 1, some ['r']⟩, ⟨.newline, 1, 2, none⟩, ⟨.indent, 2, 1, none⟩,
        ⟨.identifier, 2, 3, some "a.b".toList⟩, ⟨.dedent, 2, 6, none⟩] := by
    cbv
  unfold Reading.ofText
  rw [htokens]
  exact ⟨_, _, _, rfl, .child (.head _) (.here _), rfl⟩

end Statechart
