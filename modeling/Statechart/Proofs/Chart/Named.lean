import Statechart.Proofs.Chart.Shape
import Statechart.Proofs.Grammar.Decided
import Statechart.Proofs.Token.Names
/-!
# Named — every name in a chart was written as a name

A text with a tree has a derivation, and every state of the tree is one of its states: the id is the name in the
heading, and the transitions are the lines of its own block, each under the event that is written on it, or under the
empty event where none is (`StateTree.Writes`).  No phrase ends in an arrow, so what stands behind one is a target.
All other names are names without a `#`.
-/
namespace Statechart

open Grammar
open Keyed (collecting)

namespace Node

/-- Ids, events, targets, guards and actions are names. -/
structure Named (n : Node) : Prop where
  id : IsName n.id
  events : ∀ hs ∈ n.on, ∀ h ∈ hs, h.1 = [] ∨ IsName h.1
  transitions : ∀ hs ∈ n.on, ∀ h ∈ hs, ∀ t ∈ h.2.values, t.Printable

/-- Every transition stands on one of the lines, and is kept under the empty event if that line has no event. -/
def OnLines (n : Node) (lines : List TransitionTree) : Prop :=
  ∀ hs ∈ n.on, ∀ h ∈ hs, ∀ t ∈ h.2.values, ∃ l ∈ lines, l.value = ⟨h.1, t⟩ ∧ (h.1 = [] ↔ l.event = none)

end Node

namespace Grammar

/-- The transitions of a block, without those of the states in it. -/
def BodyTree.lines : BodyTree → List TransitionTree
  | .nil => []
  | .transition l rest => l :: rest.lines
  | .state _ rest => rest.lines

mutual

/-- The state has the name, the transitions and the children that are written here. -/
def StateTree.Writes : StateTree → Node → Prop
  | .bare h, n => n.id = h.name.word ∧ n.OnLines [] ∧ n.children = []
  | .block h _ body _, n => n.id = h.name.word ∧ n.OnLines body.lines ∧ ∀ c ∈ n.children, body.Writes c.2

def BodyTree.Writes : BodyTree → Node → Prop
  | .nil, _ => False
  | .transition _ rest, n => rest.Writes n
  | .state s rest, n => s.Writes n ∨ rest.Writes n

end

/-- The root is the one state that is written, or holds the states that are. -/
inductive ChartTree.Writes (d : ChartTree) (rootId : Text) (root : Node) : Prop where
  | one (s : StateTree) (only : d.states = [s]) (named : root.Everywhere Node.Named) (writes : s.Writes root)
  | several (many : 2 ≤ d.states.length) (id : root.id = rootId) (on : root.on = none)
      (children : ∀ c ∈ root.children, c.2.Everywhere Node.Named ∧ ∃ s ∈ d.states, s.Writes c.2)

end Grammar

/-! ## Assembling -/

namespace Assembly

theorem id_withInitial (n : Node) : (withInitial n).id = n.id := by
  unfold withInitial
  split <;> rfl

theorem on_withInitial (n : Node) : (withInitial n).on = n.on := by
  unfold withInitial
  split <;> rfl

/-- **A handler has transitions that were given for its event.** -/
theorem given_of_mem_handlers {entries : List Entry} {hs : Keyed Handler} (hhs : hs ∈ handlers entries)
    {h : Text × Handler} (hh : h ∈ hs) :
    (h.1 = collecting ∨ ∃ t, ⟨h.1, t⟩ ∈ entries) ∧ ∀ t ∈ h.2.values, ⟨h.1, t⟩ ∈ entries := by
  unfold handlers at hhs
  split at hhs
  · cases hhs
  · obtain rfl := Option.some.inj hhs
    have holds := Keyed.holds_of_mem_merge h hh
    obtain ⟨event, t | ts⟩ := h
    · have hgiven := mem_of_mem_pairs holds.2
      exact ⟨.inr ⟨t, hgiven⟩, fun u hu => by rwa [List.mem_singleton.1 hu]⟩
    · obtain ⟨rfl, -, hts⟩ := holds
      exact ⟨.inl rfl, fun u hu => mem_of_mem_pairs (hts u hu)⟩

/-- **A state assembled from names has names.** -/
theorem assemble_named {d : Draft} (hid : IsName d.heading.name) (he : ∀ e ∈ entriesOf d.body, e.Printable)
    (hc : ∀ c ∈ childrenOf d.body, c.Everywhere Node.Named) : (assemble d).Everywhere Node.Named := by
  refine .intro ⟨?_, ?_, ?_⟩ ?_
  · unfold assemble
    rwa [id_withInitial]
  · intro hs hhs h hh
    unfold assemble at hhs
    rw [on_withInitial] at hhs
    rcases (given_of_mem_handlers hhs hh).1 with hnil | ⟨t, ht⟩
    · exact .inl hnil
    · exact (he _ ht).event
  · intro hs hhs h hh t ht
    unfold assemble at hhs
    rw [on_withInitial] at hhs
    exact (he _ ((given_of_mem_handlers hhs hh).2 t ht)).transition
  · intro c hmem
    unfold assemble at hmem
    rw [children_withInitial] at hmem
    exact of_mem_childrenByName hc hmem

/-- **A state assembled from lines has their transitions.** -/
theorem assemble_onLines {d : Draft} {lines : List TransitionTree} (he : ∀ e ∈ entriesOf d.body,
    ∃ l ∈ lines, l.value = e ∧ (e.event = [] ↔ l.event = none)) : (assemble d).OnLines lines := by
  intro hs hhs h hh t ht
  unfold assemble at hhs
  rw [on_withInitial] at hhs
  exact he _ ((given_of_mem_handlers hhs hh).2 t ht)

end Assembly

/-! ## Derivations -/

namespace Grammar

theorem HeadingTree.Valid.last {h : HeadingTree} (hv : h.Valid) : ∀ a ∈ h.tokens.getLast?, a.kind ≠ .arrow := by
  intro a ha
  rcases List.mem_cons.1 (List.mem_of_getLast? ha) with rfl | ha
  · simp [hv.name]
  · rcases hv.marker a ha with hk | hk | hk <;> simp [hk]

theorem StateTree.Valid.last : ∀ {s : StateTree}, s.Valid → ∀ a ∈ s.tokens.getLast?, a.kind ≠ .arrow
  | .bare _, hv, a, ha => HeadingTree.Valid.last hv a ha
  | .block h opening body closing, ⟨_, _, _, hc⟩, a, ha => by
    have hlast : (StateTree.block h opening body closing).tokens =
        (h.tokens ++ opening :: body.tokens) ++ [closing] := by simp [StateTree.tokens]
    rw [hlast, List.getLast?_concat] at ha
    obtain rfl := Option.some.inj ha
    simp [hc]

/-- A transition ends with its target or with a label. -/
theorem TransitionTree.Valid.last {l : TransitionTree} (hl : l.Valid) :
    ∀ a ∈ l.tokens.getLast?, a.kind ≠ .arrow := by
  intro a ha
  have htail : l.tokens = (l.event.toList ++ [l.arrow]) ++ l.tail := by simp [tokens]
  have hmem : a ∈ l.tail := by
    rw [htail, List.getLast?_append, Option.or_of_isSome (by simp [tail])] at ha
    exact List.mem_of_getLast? ha
  simp only [tail, List.mem_cons, List.mem_append, Option.mem_toList] at hmem
  rcases hmem with rfl | hmem | hmem
  · simp [hl.target]
  · simp [hl.guard a hmem]
  · simp [hl.actions a hmem]

theorem StateTree.Valid.name {s : StateTree} (hv : s.Valid) (hs : SpelledFrom false s.tokens) :
    IsName s.heading.name.word := by
  obtain ⟨rest, hrest⟩ := s.tokens_eq
  rw [hrest] at hs
  exact hs.1.name hv.heading.name rfl

/-- The words of a transition line: an event, a target, and names as its guard and its actions. -/
theorem TransitionTree.Valid.spelled {l : TransitionTree} (hl : l.Valid) (hs : SpelledFrom false l.tokens) :
    (∀ t ∈ l.event, IsName t.word) ∧ IsTarget l.target.word ∧
      ∀ t ∈ l.guard.toList ++ l.actions, IsName t.word := by
  refine ⟨fun t ht => ?_, ?_, fun t ht => ?_⟩
  · rw [tokens, Option.mem_def.1 ht] at hs
    exact hs.1.name (hl.event t ht) rfl
  · unfold tokens at hs
    cases he : l.event with
    | none =>
      rw [he] at hs
      exact hs.2.1.target hl.target
    | some t =>
      rw [he] at hs
      exact hs.2.2.1.target hl.target
  · refine hs.label t (List.mem_append_right _ (List.mem_cons_of_mem _ (List.mem_cons_of_mem _ ht))) ?_
    rcases List.mem_append.1 ht with ht | ht
    · exact .inl (hl.guard t (Option.mem_toList.1 ht))
    · exact .inr (hl.actions t ht)

/-- **A transition line leaves a transition made of names**, under the empty event if it has none. -/
theorem TransitionTree.Valid.printable {l : TransitionTree} (hl : l.Valid) (hs : SpelledFrom false l.tokens) :
    l.value.Printable ∧ (l.value.event = [] ↔ l.event = none) := by
  obtain ⟨hevent, htarget, hlabels⟩ := hl.spelled hs
  have hnil : l.value.event = [] ↔ l.event = none := by
    cases he : l.event with
    | none => simp [value, he, collecting]
    | some t => simp [value, he, (hevent t he).1]
  refine ⟨⟨?_, ⟨htarget, ?_, ?_⟩, fun h hnone => ?_⟩, hnil⟩
  · cases he : l.event with
    | none => exact .inl (hnil.2 he)
    | some t =>
      refine .inr ?_
      have hname := hevent t he
      simpa [value, he] using hname
  · intro c hc
    obtain ⟨t, ht, rfl⟩ := Option.map_eq_some_iff.1 hc
    exact hlabels t (by simp [ht])
  · intro names hnames
    simp only [value] at hnames
    split at hnames
    · cases hnames
    · rename_i hne
      obtain rfl := Option.some.inj hnames
      refine ⟨fun h => hne (by simpa using h), fun a ha => ?_⟩
      obtain ⟨t, ht, rfl⟩ := List.mem_map.1 ha
      exact hlabels t (List.mem_append_right _ ht)
  · exact hl.guarded (hnil.1 h) (Option.map_eq_none_iff.1 hnone)

mutual

/-- By induction on the derivation: what stands behind a phrase stands behind no arrow. -/
theorem StateTree.named : ∀ {s : StateTree}, s.Valid → SpelledFrom false s.tokens →
    s.node.Everywhere Node.Named ∧ s.Writes s.node
  | .bare h, hv, hs => by
    have hname : IsName h.name.word := StateTree.Valid.name (s := .bare h) hv hs
    refine ⟨Assembly.assemble_named hname ?_ ?_, Assembly.id_withInitial _, ?_, rfl⟩
    · simp [Assembly.entriesOf]
    · simp [Assembly.childrenOf]
    · exact Assembly.assemble_onLines (by simp [Assembly.entriesOf])
  | .block h opening body closing, hv, hs => by
    have hname : IsName h.name.word := StateTree.Valid.name (s := .block h opening body closing) hv hs
    obtain ⟨hh, ho, hb, hc⟩ := hv
    have hopening : opening.kind ≠ .arrow := by simp [ho]
    have hbody : SpelledFrom false body.tokens := by
      have hbehind := (SpelledFrom.right hh.last (.inl rfl) hs).2
      rw [beq_eq_false_iff_ne.2 hopening] at hbehind
      exact hbehind.left
    obtain ⟨he, hc⟩ := BodyTree.named hb hbody
    refine ⟨Assembly.assemble_named hname ?_ ?_, Assembly.id_withInitial _, ?_, ?_⟩
    · exact fun e hmem => (he e hmem).1
    · exact fun c hmem => (hc c hmem).1
    · exact Assembly.assemble_onLines fun e hmem => (he e hmem).2
    · intro c hmem
      have hmem : c ∈ (Assembly.withInitial _).children := hmem
      rw [Assembly.children_withInitial] at hmem
      exact Assembly.of_mem_childrenByName (fun c hmem => (hc c hmem).2) hmem

theorem BodyTree.named : ∀ {b : BodyTree}, b.Valid → SpelledFrom false b.tokens →
    (∀ e ∈ Assembly.entriesOf b.items, e.Printable ∧ ∃ l ∈ b.lines, l.value = e ∧ (e.event = [] ↔ l.event = none)) ∧
      ∀ c ∈ Assembly.childrenOf b.items, c.Everywhere Node.Named ∧ b.Writes c
  | .nil, _, _ => by simp [BodyTree.items, Assembly.entriesOf, Assembly.childrenOf]
  | .transition l rest, ⟨hl, hr⟩, hs => by
    obtain ⟨he, hc⟩ := BodyTree.named hr (SpelledFrom.right hl.last (.inl rfl) hs)
    obtain ⟨hprintable, hevent⟩ := hl.printable hs.left
    refine ⟨List.forall_mem_cons.2 ⟨⟨hprintable, l, List.mem_cons_self, rfl, hevent⟩, fun e hmem => ?_⟩, hc⟩
    obtain ⟨hentry, l', hl', hvalue⟩ := he e hmem
    exact ⟨hentry, l', List.mem_cons_of_mem l hl', hvalue⟩
  | .state s rest, ⟨hs, hr⟩, hspelled => by
    obtain ⟨hnamed, hwrites⟩ := StateTree.named hs hspelled.left
    obtain ⟨he, hc⟩ := BodyTree.named hr (SpelledFrom.right (StateTree.Valid.last hs) (.inl rfl) hspelled)
    exact ⟨he, List.forall_mem_cons.2 ⟨⟨hnamed, .inl hwrites⟩, fun c hmem => ⟨(hc c hmem).1, .inr (hc c hmem).2⟩⟩⟩

end

theorem spelled_of_mem_states : ∀ {ss : List StateTree}, (∀ s ∈ ss, s.Valid) →
    SpelledFrom false (ss.flatMap StateTree.tokens) → ∀ s ∈ ss, SpelledFrom false s.tokens
  | s :: ss, hv, hs, s', hs' => by
    obtain ⟨hfirst, hrest⟩ := List.forall_mem_cons.1 hv
    rw [List.flatMap_cons] at hs
    rcases List.mem_cons.1 hs' with rfl | hs'
    · exact hs.left
    · exact spelled_of_mem_states hrest (SpelledFrom.right hfirst.last (.inl rfl) hs) s' hs'

theorem ChartTree.Valid.spelled {d : ChartTree} (hd : d.Valid) (hs : SpelledFrom false d.tokens) :
    ∀ s ∈ d.states, SpelledFrom false s.tokens := by
  refine spelled_of_mem_states hd.states ?_
  unfold ChartTree.tokens at hs
  split at hs
  · exact hs
  · rename_i opening closing hframe
    have hindent : opening.kind = .indent := (hd.frame _ hframe).1
    have hopening : opening.kind ≠ .arrow := by simp [hindent]
    have hbehind := hs.2
    rw [beq_eq_false_iff_ne.2 hopening] at hbehind
    exact hbehind.left

theorem StateTree.Writes.asRoot {s : StateTree} {n : Node} (h : s.Writes n) : s.Writes (Assembly.asRoot n) := by
  cases s <;> exact h

/-- **The root is written**, or holds what is written. -/
theorem ChartTree.Valid.writes {d : ChartTree} (hd : d.Valid) (hs : SpelledFrom false d.tokens) (rootId : Text) :
    d.Writes rootId (Assembly.root rootId d.nodes) := by
  have hstates : ∀ s ∈ d.states, s.node.Everywhere Node.Named ∧ s.Writes s.node := fun s hmem =>
    StateTree.named (hd.states s hmem) (hd.spelled hs s hmem)
  obtain ⟨frame, first, rest⟩ := d
  cases rest with
  | nil =>
    obtain ⟨⟨hnamed, hbelow⟩, hwrites⟩ := hstates first List.mem_cons_self
    exact .one first rfl ⟨⟨hnamed.id, hnamed.events, hnamed.transitions⟩, hbelow⟩ hwrites.asRoot
  | cons second rest =>
    have htwo : 2 ≤ (first :: second :: rest).length := by simp
    refine .several htwo (Assembly.id_withInitial _) (Assembly.on_withInitial _) fun c hc => ?_
    have hc : c ∈ (Assembly.withInitial (Assembly.synthetic rootId _)).children := hc
    rw [Assembly.children_withInitial] at hc
    have hnodes : ∀ n ∈ (first :: second :: rest).map StateTree.node,
        n.Everywhere Node.Named ∧ ∃ s ∈ first :: second :: rest, s.Writes n := by
      intro n hn
      obtain ⟨s, hmem, rfl⟩ := List.mem_map.1 hn
      exact ⟨(hstates s hmem).1, s, hmem, (hstates s hmem).2⟩
    exact Assembly.of_mem_childrenByName hnodes hc

end Grammar

/-- **Every name in a chart was written as a name.**  A text is refused only where the lexer refuses its indentation, and
a tree has the names, the transitions and the children that its derivation writes. -/
theorem ofText_named (rootId t : Text) :
    (∀ r, Reading.ofText rootId t = .error r ↔ ∃ e, r = .indentation e ∧ tokenize t = .error e) ∧
      ∀ root records, Reading.ofText rootId t = .ok (.tree root, records) →
        ∃ ts, tokenize t = .ok ts ∧ ∃ d : ChartTree, (d.Valid ∧ d.Eager ∧ d.tokens = seen ts) ∧
          root = Assembly.root rootId d.nodes ∧ d.Writes rootId root := by
  refine ⟨Reading.ofText_refused_iff rootId t, fun root records h => ?_⟩
  obtain ⟨ts, hts, d, hd, rfl⟩ := Reading.derivation_of_tree h
  refine ⟨ts, hts, d, hd, rfl, hd.1.writes ?_ rootId⟩
  rw [hd.2.2]
  exact spelled_of_tokenize hts

/-- A state with a transition to a target elsewhere and one that needs no event. -/
def away : Text := "a\n  e -> #b.c > go\n  -> a; k".toList

theorem ofText_named_away :
    ∃ root records, Reading.ofText [] away = .ok (.tree root, records) ∧
      root.on = some [(['e'], .one { target := "#b.c".toList, actions := some ["go".toList] }),
        ([], .all [{ target := ['a'], cond := some ['k'] }])] ∧
      ∃ d : ChartTree, d.Valid ∧ d.Writes [] root := by
  have htokens : tokenize away = .ok [⟨.identifier, 1, 1, some ['a']⟩, ⟨.newline, 1, 2, none⟩, ⟨.indent, 2, 1, none⟩,
      ⟨.identifier, 2, 3, some ['e']⟩, ⟨.arrow, 2, 5, none⟩, ⟨.identifier, 2, 8, some "#b.c".toList⟩,
      ⟨.action, 2, 13, some "go".toList⟩, ⟨.newline, 2, 17, none⟩, ⟨.arrow, 3, 3, none⟩,
      ⟨.identifier, 3, 6, some ['a']⟩, ⟨.condition, 3, 7, some ['k']⟩, ⟨.dedent, 3, 10, none⟩] := by
    cbv
  have hread : ∃ root records, Reading.ofText [] away = .ok (.tree root, records) ∧
      root.on = some [(['e'], .one { target := "#b.c".toList, actions := some ["go".toList] }),
        ([], .all [{ target := ['a'], cond := some ['k'] }])] := by
    unfold Reading.ofText
    rw [htokens]
    exact ⟨_, _, rfl, rfl⟩
  obtain ⟨root, records, hread, hon⟩ := hread
  obtain ⟨ts, -, d, hd, -, hwrites⟩ := (ofText_named [] away).2 root records hread
  exact ⟨root, records, hread, hon, d, hd.1, hwrites⟩

end Statechart
