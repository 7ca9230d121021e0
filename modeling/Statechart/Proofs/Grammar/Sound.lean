import Statechart.Proofs.Grammar.Lines
/-!
# Sound — what the rules read has an eager derivation

By induction on the nesting, everything that the rule for a statement reads is a transition, or a state where no
transition could be read (`Reads`).  The second half of that is what makes a derivation eager: where a name with an
arrow behind it were read as a state, the arrow would begin a transition, and then that transition would have been read
with the name as its event.
-/
namespace Statechart
namespace Grammar

open Matcher (Gives Fails Repeats look)

variable {tokens : Array Token} {i j k : Nat}

/-- An item as it stands in the tokens: a transition, or a state that no transition forestalls. -/
def Reads (tokens : Array Token) (i : Nat) (item : Item) (j : Nat) : Prop :=
  (∃ l : TransitionTree, l.Valid ∧ Spans tokens i l.tokens j ∧ item = .entry l.value) ∨
    transition.run.Fails tokens i ∧
      ∃ s : StateTree, s.Valid ∧ s.Eager ∧ Spans tokens i s.tokens j ∧ item = .child s.node

theorem Reads.le {item : Item} : Reads tokens i item j → i ≤ j
  | .inl ⟨_, _, h, _⟩ => h.le
  | .inr ⟨_, _, _, _, h, _⟩ => h.le

theorem stateOf_run (st : Rule Item) : (stateOf st).run = ((Rule.oneOf [stateWithBody st, stateNameOnly]).run >>=
    fun draft => Matcher.remark (Assembly.remarks draft) >>= fun _ => pure (Assembly.assemble draft)) := rfl

theorem stateWithBody_run (st : Rule Item) : (stateWithBody st).run = (heading.run >>= fun h => indent.run >>= fun _ =>
    st.run.many >>= fun body => dedent.run >>= fun _ => pure { heading := h, body }) := rfl

theorem stateNameOnly_run : stateNameOnly.run = (heading.run >>= fun h => pure { heading := h }) := rfl

theorem statementOf_run (st : Rule Item) : (statementOf st).run =
    (Rule.oneOf [transition.map Item.entry, (stateOf st).map Item.child]).run := rfl

/-- **Where no transition is read, no arrow stands behind a state's name.** -/
theorem not_arrowBehind_of_fails (hw : AllWorded tokens) {s : StateTree} {rest : BodyTree} (hs : s.Valid)
    (hr : rest.Valid) (h : Spans tokens i (s.tokens ++ rest.tokens) j) (hf : transition.run.Fails tokens i) :
    ¬ ArrowBehind s.heading.name (s.tokens ++ rest.tokens).tail := by
  intro ha
  obtain ⟨name, l, rest', rfl, rfl, he, hline⟩ := ha.shape hs hr
  have hl : l.Valid := hr.1
  have hspan : Spans tokens i (name :: (l.tokens ++ rest'.tokens)) j := h
  rw [TransitionTree.tokens, he] at hspan
  obtain ⟨hname, harr, hto, -⟩ := hspan
  have hto' : l.target.line = l.arrow.line := hl.line _ (by simp [TransitionTree.tokens, TransitionTree.tail])
  exact transition_not_fails hw hname hs.heading.name harr hl.arrow hline hto hl.target (hto'.trans hline) hf

/-- **What a repetition of statements reads is the inside of a block.** -/
theorem body_of_repeats (hw : AllWorded tokens) {p : Matcher Item}
    (hp : ∀ {i item j}, p.Gives tokens i item j → Reads tokens i item j) {items : List Item}
    (h : Repeats p tokens i items j) :
    ∃ b : BodyTree, b.Valid ∧ b.Eager ∧ Spans tokens i b.tokens j ∧ b.items = items := by
  induction h with
  | nil i => exact ⟨.nil, trivial, trivial, rfl, rfl⟩
  | cons first inside moves rest ih =>
    obtain ⟨b, hb, eb, sb, rfl⟩ := ih
    rcases hp first with ⟨l, hl, sl, rfl⟩ | ⟨hf, s, hs, es, ss, rfl⟩
    · exact ⟨.transition l b, ⟨hl, hb⟩, eb, sl.append sb, rfl⟩
    · have hspan := ss.append sb
      exact ⟨.state s b, ⟨hs, hb⟩, ⟨es, not_arrowBehind_of_fails hw hs hb hspan hf, eb⟩, hspan, rfl⟩

/-- **What the rule for a state reads is a state**, if the rule for its statements reads statements. -/
theorem stateOf_sound (hw : AllWorded tokens) {st : Rule Item}
    (hst : ∀ {i item j}, st.run.Gives tokens i item j → Reads tokens i item j) {n : Node}
    (h : (stateOf st).run.Gives tokens i n j) :
    ∃ s : StateTree, s.Valid ∧ s.Eager ∧ Spans tokens i s.tokens j ∧ s.node = n := by
  rw [stateOf_run] at h
  simp only [Matcher.gives_bind, Matcher.gives_remark, Matcher.gives_pure] at h
  obtain ⟨draft, _, hd, _, _, rfl, rfl, rfl⟩ := h
  rcases Rule.gives_oneOf_pair.1 hd with hd | ⟨-, hd⟩
  · rw [stateWithBody_run] at hd
    simp only [indent, dedent, Rule.expect, Matcher.gives_bind, Matcher.gives_expect, Matcher.gives_pure] at hd
    obtain ⟨_, _, hh, opening, _, ⟨hopen, hko, rfl⟩, items, _, hmany, closing, _, ⟨hclose, hkc, rfl⟩, rfl, rfl⟩ := hd
    obtain ⟨d, hdv, sd, rfl⟩ := heading_sound hw hh
    obtain ⟨b, hb, eb, sb, rfl⟩ := body_of_repeats hw hst
      (Matcher.repeats_of_gives_many (fun hg => (hst hg).le) hmany)
    exact ⟨.block d opening b closing, ⟨hdv, hko, hb, hkc⟩, eb,
      sd.append ⟨hopen, sb.append ⟨hclose, rfl⟩⟩, rfl⟩
  · rw [stateNameOnly_run] at hd
    simp only [Matcher.gives_bind, Matcher.gives_pure] at hd
    obtain ⟨_, _, hh, rfl, rfl⟩ := hd
    obtain ⟨d, hdv, sd, rfl⟩ := heading_sound hw hh
    exact ⟨.bare d, hdv, trivial, sd, rfl⟩

/-- **What the rule for a statement reads is a statement**, however deep it nests. -/
theorem statementUpTo_sound (hw : AllWorded tokens) : ∀ (n : Nat) {i : Nat} {item : Item} {j : Nat},
    (statementUpTo n).run.Gives tokens i item j → Reads tokens i item j
  | 0, _, _, _, h => by cases h
  | n + 1, i, item, j, h => by
    have hst := @statementUpTo_sound hw n
    rw [statementUpTo_succ, statementOf_run] at h
    rcases Rule.gives_oneOf_pair.1 h with h | ⟨hf, h⟩
    · obtain ⟨e, he, rfl⟩ := Rule.gives_map.1 h
      obtain ⟨l, hl, sl, rfl⟩ := transition_sound hw he
      exact .inl ⟨l, hl, sl, rfl⟩
    · obtain ⟨node, hn, rfl⟩ := Rule.gives_map.1 h
      obtain ⟨s, hs, es, ss, rfl⟩ := stateOf_sound hw hst hn
      exact .inr ⟨Rule.fails_map.1 hf, s, hs, es, ss, rfl⟩

theorem statement_run (tokens : Array Token) (i : Nat) :
    statement.run tokens i = (statementUpTo (tokens.size + 1)).run tokens i := rfl

theorem gives_statement_iff {item : Item} :
    statement.run.Gives tokens i item j ↔ (statementUpTo (tokens.size + 1)).run.Gives tokens i item j := by
  unfold Gives
  rw [statement_run]

theorem statement_sound (hw : AllWorded tokens) {item : Item} (h : statement.run.Gives tokens i item j) :
    Reads tokens i item j :=
  statementUpTo_sound hw (tokens.size + 1) (gives_statement_iff.1 h)

theorem state_sound (hw : AllWorded tokens) {n : Node} (h : state.run.Gives tokens i n j) :
    ∃ s : StateTree, s.Valid ∧ s.Eager ∧ Spans tokens i s.tokens j ∧ s.node = n :=
  stateOf_sound hw (statement_sound hw) h

theorem state_le (hw : AllWorded tokens) {n : Node} (h : state.run.Gives tokens i n j) : i ≤ j := by
  obtain ⟨_, _, _, hs, _⟩ := state_sound hw h
  exact hs.le

theorem states_of_repeats (hw : AllWorded tokens) {nodes : List Node} (h : Repeats state.run tokens i nodes j) :
    ∃ ss : List StateTree, (∀ s ∈ ss, s.Valid) ∧ (∀ s ∈ ss, s.Eager) ∧ Spans tokens i (ss.flatMap StateTree.tokens) j ∧
      ss.map StateTree.node = nodes := by
  induction h with
  | nil i => exact ⟨[], by simp, by simp, rfl, rfl⟩
  | cons first inside moves rest ih =>
    obtain ⟨s, hs, es, sp, rfl⟩ := state_sound hw first
    obtain ⟨ss, hss, ess, sps, rfl⟩ := ih
    exact ⟨s :: ss, List.forall_mem_cons.2 ⟨hs, hss⟩, List.forall_mem_cons.2 ⟨es, ess⟩, sp.append sps, rfl⟩

theorem chart_run : chart.run = (indent.run.optional >>= fun lead => state.run >>= fun first =>
    state.run.many >>= fun rest => closeLead lead >>= fun _ => Rule.endOfInput.run >>= fun _ =>
    pure (first :: rest)) := rfl

/-- **What the rule for a chart reads is a chart**: the whole input, from an eager derivation. -/
theorem chart_sound (hw : AllWorded tokens) {nodes : List Node} (h : chart.run.Gives tokens 0 nodes j) :
    ∃ d : ChartTree, d.Valid ∧ d.Eager ∧ d.tokens = tokens.toList ∧ d.nodes = nodes := by
  rw [chart_run] at h
  simp only [indent, Matcher.gives_bind, Matcher.gives_pure, gives_marker] at h
  obtain ⟨lead, j₁, ⟨hlead, slead, -⟩, first, j₂, hfirst, rest, j₃, hrest, _, j₄, hclose, _, _, hend, rfl, rfl⟩ := h
  obtain ⟨hlast, rfl⟩ := Matcher.gives_atEnd.1 hend
  obtain ⟨s, hs, es, sp, rfl⟩ := state_sound hw hfirst
  obtain ⟨ss, hss, ess, sps, rfl⟩ := states_of_repeats hw (Matcher.repeats_of_gives_many (state_le hw) hrest)
  have hstates : Spans tokens j₁ ((s :: ss).flatMap StateTree.tokens) j₃ := sp.append sps
  cases lead with
  | none =>
    obtain rfl : 0 = j₁ := slead
    obtain ⟨-, rfl⟩ := Matcher.gives_pure.1 hclose
    exact ⟨⟨none, s, ss⟩, ⟨List.forall_mem_cons.2 ⟨hs, hss⟩, by simp⟩, List.forall_mem_cons.2 ⟨es, ess⟩,
      hstates.eq_toList hlast, rfl⟩
  | some opening =>
    obtain ⟨hopen, rfl⟩ := slead
    simp only [closeLead, dedent, Rule.expect, Matcher.gives_bind, Matcher.gives_expect, Matcher.gives_pure] at hclose
    obtain ⟨closing, _, ⟨hcl, hkc, rfl⟩, -, rfl⟩ := hclose
    have hall : Spans tokens 0 (opening :: ((s :: ss).flatMap StateTree.tokens ++ [closing])) (j₃ + 1) :=
      ⟨hopen, hstates.append ⟨hcl, rfl⟩⟩
    refine ⟨⟨some (opening, closing), s, ss⟩, ⟨List.forall_mem_cons.2 ⟨hs, hss⟩, ?_⟩,
      List.forall_mem_cons.2 ⟨es, ess⟩, hall.eq_toList hlast, rfl⟩
    rintro p hp
    obtain rfl := Option.some.inj hp
    exact ⟨hlead opening rfl, hkc⟩

end Grammar
end Statechart
