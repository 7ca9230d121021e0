import Mathlib
import Statechart.Proofs.Grammar.Outcome
import Statechart.Proofs.Keyed
/-!
# Shape — what the states of a chart look like

A state is assembled from parts that were read apart from each other: a heading, entries that a transition line left,
and states assembled before.  What is put together is consistent at every depth: mappings are absent or not empty,
keys are the ids of the children, and the default child is one of them (`Node.Settled`).  The root is made in two
ways, and both keep that.
-/
namespace Statechart

open Grammar
open Keyed (keys collecting)

/-- A transition that needs no event has a guard, and actions are absent or some. -/
structure Entry.Shaped (e : Entry) : Prop where
  guarded : e.event = collecting → e.transition.cond ≠ none
  actions : e.transition.actions ≠ some []

/-- The empty event holds guarded transitions, any other event one transition. -/
def HandlerShaped : Text × Handler → Prop
  | (event, .one t) => event ≠ collecting ∧ t.actions ≠ some []
  | (event, .all ts) => event = collecting ∧ ts ≠ [] ∧ ∀ t ∈ ts, t.cond ≠ none ∧ t.actions ≠ some []

namespace Node

/-- The name of the last child that is marked, or of the first child where none is. -/
inductive DefaultOf (children : Keyed Node) (name : Text) : Prop where
  | marked {before after : Keyed Node} {c : Node} (split : children = before ++ (name, c) :: after)
      (mark : c.isInitial = some true) (last : ∀ x ∈ after, x.2.isInitial ≠ some true)
  | first {c : Node} {rest : Keyed Node} (split : children = (name, c) :: rest)
      (unmarked : ∀ x ∈ children, x.2.isInitial ≠ some true)

/-- What holds of a state before its default child is found. -/
structure Shaped (n : Node) : Prop where
  states : ∀ cs ∈ n.states, cs ≠ [] ∧ (keys cs).Nodup ∧ ∀ c ∈ cs, c.1 = c.2.id
  compound : n.kind = .compound → n.states ≠ none
  atomic : n.kind = .atomic → n.states = none
  handlers : ∀ hs ∈ n.on, hs ≠ [] ∧ (keys hs).Nodup ∧ ∀ h ∈ hs, HandlerShaped h
  mark : n.isInitial = none ∨ n.isInitial = some true

/-- A state with children names its default child, and one without names none. -/
structure Settled (n : Node) : Prop extends Shaped n where
  initial_isSome : n.initial.isSome = n.states.isSome
  default : ∀ cs ∈ n.states, ∀ name ∈ n.initial, DefaultOf cs name

/-- A property of a state and of all states below it. -/
inductive Everywhere (P : Node → Prop) : Node → Prop where
  | intro {n : Node} (here : P n) (below : ∀ c ∈ n.children, Everywhere P c.2) : Everywhere P n

end Node

namespace Assembly

/-! ## Handlers and children -/

theorem mem_of_mem_pairs {entries : List Entry} {event : Text} {t : Transition}
    (h : (event, t) ∈ (entries.map (fun e => [(e.event, e.transition)])).flatten) : ⟨event, t⟩ ∈ entries := by
  rw [← List.flatMap_def, ← List.map_eq_flatMap] at h
  obtain ⟨e, hentry, heq⟩ := List.mem_map.1 h
  obtain ⟨rfl, rfl⟩ := Prod.mk.inj heq
  exact hentry

/-- **Transitions make up handlers.** -/
theorem handlers_shaped {entries : List Entry} (he : ∀ e ∈ entries, e.Shaped) :
    ∀ hs ∈ handlers entries, hs ≠ [] ∧ (keys hs).Nodup ∧ ∀ h ∈ hs, HandlerShaped h := by
  intro hs hhs
  unfold handlers at hhs
  split at hhs
  · cases hhs
  · rename_i hne
    obtain rfl := Option.some.inj hhs
    refine ⟨Keyed.merge_ne_nil fun hnil => hne ?_, Keyed.nodup_keys_merge _, fun h hh => ?_⟩
    · rw [← List.flatMap_def, ← List.map_eq_flatMap, List.map_eq_nil_iff] at hnil
      rw [hnil]
      rfl
    · have holds := Keyed.holds_of_mem_merge h hh
      obtain ⟨event, t | ts⟩ := h
      · exact ⟨holds.1, (he _ (mem_of_mem_pairs holds.2)).actions⟩
      · obtain ⟨hevent, hts, hgiven⟩ := holds
        have hentry : ∀ t ∈ ts, Entry.Shaped ⟨collecting, t⟩ := fun t ht => he _ (mem_of_mem_pairs (hgiven t ht))
        exact ⟨hevent, hts, fun t ht => ⟨(hentry t ht).guarded rfl, (hentry t ht).actions⟩⟩

/-- **Children are kept under their ids.** -/
theorem childrenByName_shaped {children : List Node} : ∀ cs ∈ childrenByName children,
    cs ≠ [] ∧ (keys cs).Nodup ∧ ∀ c ∈ cs, c.1 = c.2.id ∧ c.2 ∈ children := by
  intro cs hcs
  unfold childrenByName at hcs
  split at hcs
  · cases hcs
  · rename_i hne
    obtain rfl := Option.some.inj hcs
    refine ⟨Keyed.ofEntries_ne_nil fun hnil => hne ?_, Keyed.nodup_keys_ofEntries _, fun c hc => ?_⟩
    · rw [List.map_eq_nil_iff.1 hnil]
      rfl
    · obtain ⟨n, hn, rfl⟩ := List.mem_map.1 (Keyed.mem_of_mem_ofEntries c hc)
      exact ⟨rfl, hn⟩

theorem childrenByName_eq_none {children : List Node} : childrenByName children = none ↔ children.length = 0 := by
  unfold childrenByName
  cases children <;> simp

/-- What holds of all children holds of those that are kept. -/
theorem of_mem_childrenByName {P : Node → Prop} {children : List Node} (h : ∀ c ∈ children, P c) {c : Text × Node}
    (hc : c ∈ (childrenByName children).getD []) : P c.2 := by
  cases hcs : childrenByName children with
  | none =>
    rw [hcs] at hc
    cases hc
  | some cs =>
    rw [hcs] at hc
    exact h _ ((childrenByName_shaped cs hcs).2.2 c hc).2

/-! ## The default child -/

/-- Behind the last element with a property there is none with it. -/
theorem split_of_getLast?_filter {α : Type} {p : α → Bool} {l : List α} {a : α} (h : (l.filter p).getLast? = some a) :
    p a ∧ ∃ before after, l = before ++ a :: after ∧ ∀ x ∈ after, p x = false := by
  -- the last one is the first one found from behind
  obtain ⟨ha, after, before, hsplit, hnone⟩ := List.find?_eq_some_iff_append.1 (List.getLast?_filter ▸ h)
  have hl : l = before.reverse ++ a :: after.reverse := by
    rw [← List.reverse_reverse l, hsplit]
    simp
  exact ⟨ha, _, _, hl, fun x hx => by simpa using hnone x (List.mem_reverse.1 hx)⟩

/-- **The default child is the last one marked, else the first.** -/
theorem defaultOf_marked {n : Node} {first : Text} {c : Node} {rest : Keyed Node}
    (h : n.children = (first, c) :: rest) : Node.DefaultOf n.children ((marked n).getLastD first) := by
  unfold marked
  rw [List.getLastD_eq_getLast?, List.getLast?_map]
  cases hlast : (n.children.filter (fun c => c.2.isInitial == some true)).getLast? with
  | none =>
    have hnone := List.getLast?_eq_none_iff.1 hlast
    refine .first h fun x hx hmark => ?_
    exact List.filter_eq_nil_iff.1 hnone x hx (by simp [hmark])
  | some x =>
    obtain ⟨name, c'⟩ := x
    obtain ⟨hmark, before, after, hsplit, hnone⟩ := split_of_getLast?_filter hlast
    exact .marked hsplit (by simpa using hmark) fun y hy => by simpa using hnone y hy

/-- **Finding the default child settles a state.** -/
theorem withInitial_settled {n : Node} (h : n.Shaped) (hinitial : n.initial = none) : (withInitial n).Settled := by
  unfold withInitial
  split
  · rename_i hnil
    have hstates : n.states = none := by
      cases hs : n.states with
      | none => rfl
      | some cs => exact absurd (show cs = [] by simpa [Node.children, hs] using hnil) (h.states cs hs).1
    exact ⟨h, by rw [hinitial, hstates]; rfl, by simp [hstates]⟩
  · rename_i first c rest hcons
    have hdefault := defaultOf_marked hcons
    have hsome : n.states = some n.children := by
      cases hs : n.states with
      | none => simp [Node.children, hs] at hcons
      | some cs => simp [Node.children, hs]
    refine ⟨⟨h.states, h.compound, h.atomic, h.handlers, h.mark⟩, by simp [hsome], ?_⟩
    rintro cs hcs name hname
    obtain rfl := Option.some.inj hname
    obtain rfl := Option.some.inj (hsome.symm.trans hcs)
    exact hdefault

theorem children_withInitial (n : Node) : (withInitial n).children = n.children := by
  unfold withInitial
  split <;> rfl

/-! ## States -/

theorem classify_shaped {h : Heading} {children : Nat} : (classify h children = .compound → children ≠ 0) ∧
    (classify h children = .atomic → children = 0) := by
  unfold classify
  cases h.final <;> cases h.parallel <;> cases children <;> simp

theorem unsettled_shaped {d : Draft} (he : ∀ e ∈ entriesOf d.body, e.Shaped) : (unsettled d).Shaped := by
  refine ⟨fun cs hcs => ?_, fun hk hnone => ?_, fun hk => ?_, handlers_shaped he, ?_⟩
  · obtain ⟨hne, hnodup, hids⟩ := childrenByName_shaped cs hcs
    exact ⟨hne, hnodup, fun c hc => (hids c hc).1⟩
  · exact classify_shaped.1 hk (childrenByName_eq_none.1 hnone)
  · exact childrenByName_eq_none.2 (classify_shaped.2 hk)
  · show (if d.heading.initial then some true else none) = none ∨ (if d.heading.initial then _ else _) = some true
    cases d.heading.initial
    · exact .inl rfl
    · exact .inr rfl

/-- **A state assembled from entries and settled states is settled**, and so is all below it. -/
theorem assemble_settled {d : Draft} (he : ∀ e ∈ entriesOf d.body, e.Shaped)
    (hc : ∀ c ∈ childrenOf d.body, c.Everywhere Node.Settled) : (assemble d).Everywhere Node.Settled := by
  refine .intro (withInitial_settled (unsettled_shaped he) rfl) fun c hmem => ?_
  unfold assemble at hmem
  rw [children_withInitial] at hmem
  exact of_mem_childrenByName hc hmem

end Assembly

namespace Grammar

/-- **A transition line without an event leaves a guarded transition.** -/
theorem TransitionTree.Valid.shaped {l : TransitionTree} (hl : l.Valid) (hw : ∀ t ∈ l.tokens, t.Worded) :
    l.value.Shaped := by
  refine ⟨fun hevent hnone => ?_, fun hactions => ?_⟩
  · have hguard : l.guard = none := Option.map_eq_none_iff.1 hnone
    cases he : l.event with
    | none => exact hl.guarded he hguard
    | some t =>
      -- an event that is written is a name, so it is never the collecting key
      have hword := hw t (by simp [tokens, he]) (.inl (hl.event t he))
      simp only [value, he] at hevent
      exact hword hevent
  · simp only [value] at hactions
    split at hactions
    · cases hactions
    · rename_i hne
      rw [Option.some.injEq, List.map_eq_nil_iff] at hactions
      exact hne (by rw [hactions]; rfl)

mutual

/-- By induction on the derivation: what is in the block of a state is shaped before the state is assembled. -/
theorem StateTree.settled : ∀ {s : StateTree}, s.Valid → (∀ t ∈ s.tokens, t.Worded) → s.node.Everywhere Node.Settled
  | .bare _, _, _ => Assembly.assemble_settled (by simp [Assembly.entriesOf]) (by simp [Assembly.childrenOf])
  | .block _ _ body _, ⟨_, _, hb, _⟩, hw => by
    obtain ⟨he, hc⟩ := BodyTree.settled hb fun t ht => hw t (by simp [StateTree.tokens, ht])
    exact Assembly.assemble_settled he hc

theorem BodyTree.settled : ∀ {b : BodyTree}, b.Valid → (∀ t ∈ b.tokens, t.Worded) →
    (∀ e ∈ Assembly.entriesOf b.items, e.Shaped) ∧ ∀ c ∈ Assembly.childrenOf b.items, c.Everywhere Node.Settled
  | .nil, _, _ => by simp [BodyTree.items, Assembly.entriesOf, Assembly.childrenOf]
  | .transition l rest, ⟨hl, hr⟩, hw => by
    obtain ⟨he, hc⟩ := BodyTree.settled hr fun t ht => hw t (List.mem_append_right _ ht)
    exact ⟨List.forall_mem_cons.2 ⟨hl.shaped fun t ht => hw t (List.mem_append_left _ ht), he⟩, hc⟩
  | .state s rest, ⟨hs, hr⟩, hw => by
    have hnode := StateTree.settled hs fun t ht => hw t (List.mem_append_left _ ht)
    obtain ⟨he, hc⟩ := BodyTree.settled hr fun t ht => hw t (List.mem_append_right _ ht)
    exact ⟨he, List.forall_mem_cons.2 ⟨hnode, hc⟩⟩

end

theorem ChartTree.Valid.settled {d : ChartTree} (hd : d.Valid) (hw : ∀ t ∈ d.tokens, t.Worded) :
    ∀ n ∈ d.nodes, n.Everywhere Node.Settled := by
  intro n hn
  obtain ⟨s, hs, rfl⟩ := List.mem_map.1 hn
  have inside : ∀ t ∈ s.tokens, t ∈ d.tokens := by
    intro t ht
    have hmem : t ∈ d.states.flatMap StateTree.tokens := List.mem_flatMap.2 ⟨s, hs, ht⟩
    unfold ChartTree.tokens
    split
    · exact hmem
    · exact List.mem_cons_of_mem _ (List.mem_append_left _ hmem)
  exact StateTree.settled (hd.states s hs) fun t ht => hw t (inside t ht)

end Grammar

namespace Assembly

theorem asRoot_settled {n : Node} (h : n.Everywhere Node.Settled) : (asRoot n).Everywhere Node.Settled := by
  obtain ⟨here, below⟩ := h
  exact ⟨⟨⟨here.states, here.compound, here.atomic, here.handlers, .inl rfl⟩, here.initial_isSome, here.default⟩, below⟩

theorem synthetic_settled {rootId : Text} {states : List Node} (hne : states ≠ [])
    (h : ∀ n ∈ states, n.Everywhere Node.Settled) : (withInitial (synthetic rootId states)).Everywhere Node.Settled := by
  have hshaped : (synthetic rootId states).Shaped := by
    refine ⟨fun cs hcs => ?_, fun _ hnone => ?_, nofun, nofun, .inl rfl⟩
    · obtain ⟨hcs, hnodup, hids⟩ := childrenByName_shaped cs hcs
      exact ⟨hcs, hnodup, fun c hc => (hids c hc).1⟩
    · exact hne (List.length_eq_zero_iff.1 (childrenByName_eq_none.1 hnone))
  refine .intro (withInitial_settled hshaped rfl) fun c hmem => ?_
  rw [children_withInitial] at hmem
  exact of_mem_childrenByName h hmem

/-- **Both roots are settled, and nobody's default child.** -/
theorem root_settled {rootId : Text} {states : List Node} (hne : states ≠ [])
    (h : ∀ n ∈ states, n.Everywhere Node.Settled) :
    (root rootId states).Everywhere Node.Settled ∧ (root rootId states).isInitial = none := by
  unfold root
  split
  · exact ⟨asRoot_settled (h _ (List.mem_singleton_self _)), rfl⟩
  · refine ⟨synthetic_settled hne h, ?_⟩
    unfold withInitial
    split <;> rfl

end Assembly

/-- **Every state of a chart that was read is settled**, and the root is nobody's default child. -/
theorem ofText_settled {rootId t : Text} {root : Node} {records : List Record}
    (h : Reading.ofText rootId t = .ok (.tree root, records)) :
    root.Everywhere Node.Settled ∧ root.isInitial = none := by
  obtain ⟨ts, hts, d, ⟨hd, -, htokens⟩, rfl⟩ := Reading.derivation_of_tree h
  have hw : ∀ t ∈ d.tokens, t.Worded := htokens ▸ Reading.worded_of_seen hts
  exact Assembly.root_settled (List.cons_ne_nil _ _) (hd.settled hw)

/-- Two outermost states, and in the first one a child declared again that is marked then, but not as the last one. -/
def marks : Text := "a\n  b\n  c*\n  b*\n    -> c; k\nd".toList

theorem ofText_settled_marks :
    ∃ root records, Reading.ofText ['m'] marks = .ok (.tree root, records) ∧
      keys root.children = [['a'], ['d']] ∧ (root.find ['a']).bind Node.initial = some ['c'] ∧
        root.Everywhere Node.Settled ∧ root.isInitial = none := by
  have htokens : tokenize marks = .ok
      [⟨.identifier, 1, 1, some ['a']⟩, ⟨.newline, 1, 2, none⟩, ⟨.indent, 2, 1, none⟩,
        ⟨.identifier, 2, 3, some ['b']⟩, ⟨.newline, 2, 4, none⟩, ⟨.identifier, 3, 3, some ['c']⟩,
        ⟨.initial, 3, 4, none⟩, ⟨.newline, 3, 5, none⟩, ⟨.identifier, 4, 3, some ['b']⟩, ⟨.initial, 4, 4, none⟩,
        ⟨.newline, 4, 5, none⟩, ⟨.indent, 5, 1, none⟩, ⟨.arrow, 5, 5, none⟩, ⟨.identifier, 5, 8, some ['c']⟩,
        ⟨.condition, 5, 9, some ['k']⟩, ⟨.newline, 5, 12, none⟩, ⟨.dedent, 6, 1, none⟩, ⟨.dedent, 6, 1, none⟩,
        ⟨.identifier, 6, 1, some ['d']⟩] := by
    cbv
  have h : ∃ root records, Reading.ofText ['m'] marks = .ok (.tree root, records) ∧
      keys root.children = [['a'], ['d']] ∧ (root.find ['a']).bind Node.initial = some ['c'] := by
    unfold Reading.ofText
    rw [htokens]
    exact ⟨_, _, rfl, rfl, rfl⟩
  obtain ⟨root, records, hread, hkeys, hinitial⟩ := h
  exact ⟨root, records, hread, hkeys, hinitial, ofText_settled hread⟩

end Statechart
