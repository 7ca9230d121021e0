import Statechart.Proofs.Grammar.Sound
/-!
# Complete — every eager derivation is what the rules read

The rules choose in order and never take a choice back, so one has to see that each choice is the derivation's.  What
stands behind a statement is a name, an arrow, the end of the block or the end of the input (`Boundary`): none of it
could have belonged to the statement.  And a name that the derivation takes for a state has no arrow behind it, so the
rule for a transition, which is tried first, fails there.
-/
namespace Statechart
namespace Grammar

open Matcher (Gives Fails Repeats)

variable {tokens : Array Token} {i j k : Nat}

/-- A statement ends here: only another one, the end of a block or the end of the input can follow. -/
def Boundary (tokens : Array Token) (i : Nat) : Prop :=
  ∀ t, tokens[i]? = some t → t.kind = .identifier ∨ t.kind = .arrow ∨ t.kind = .dedent

theorem Boundary.lacks {kind : TokenKind} (h : Boundary tokens i)
    (hk : kind ≠ .identifier ∧ kind ≠ .arrow ∧ kind ≠ .dedent) : Lacks tokens i kind := by
  rintro t ht rfl
  rcases h t ht with h | h | h
  · exact hk.1 h
  · exact hk.2.1 h
  · exact hk.2.2 h

theorem Boundary.noMarker (h : Boundary tokens i) : NoMarker tokens i :=
  ⟨h.lacks (by decide), h.lacks (by decide), h.lacks (by decide)⟩

theorem Boundary.noLabel (h : Boundary tokens i) : NoLabel tokens i :=
  ⟨h.lacks (by decide), h.lacks (by decide)⟩

theorem boundary_of_dedent {t : Token} (h : tokens[i]? = some t) (hk : t.kind = .dedent) : Boundary tokens i := by
  intro u hu
  rw [h, Option.some.injEq] at hu
  exact .inr (.inr (hu ▸ hk))

/-- **Statements begin and end at boundaries.** -/
theorem BodyTree.Valid.boundary {b : BodyTree} (hb : b.Valid) (h : Spans tokens i b.tokens j)
    (hj : Boundary tokens j) : Boundary tokens i := by
  cases hts : b.tokens with
  | nil =>
    rw [hts] at h
    obtain rfl : i = j := h
    exact hj
  | cons a ts =>
    rw [hts] at h
    intro t ht
    rw [h.1, Option.some.injEq] at ht
    subst ht
    rcases hb.head a (by simp [hts]) with hk | ⟨l, rest, rfl, -, rfl⟩
    · exact .inl hk
    · exact .inr (.inl hb.1.arrow)

theorem boundary_of_states {ss : List StateTree} (hss : ∀ s ∈ ss, s.Valid)
    (h : Spans tokens i (ss.flatMap StateTree.tokens) j) (hj : Boundary tokens j) : Boundary tokens i := by
  cases ss with
  | nil =>
    obtain rfl : i = j := h
    exact hj
  | cons s ss =>
    obtain ⟨tl, htl⟩ := s.tokens_eq
    rw [List.flatMap_cons, htl] at h
    intro t ht
    rw [h.1, Option.some.injEq] at ht
    subst ht
    exact .inl (hss s List.mem_cons_self).heading.name

/-! ## States -/

/-- A heading without a block is no state with a block. -/
theorem stateWithBody_fails (hw : AllWorded tokens) {st : Rule Item} {d : HeadingTree} (hd : d.Valid)
    (h : Spans tokens i d.tokens j) (hj : Boundary tokens j) : (stateWithBody st).run.Fails tokens i := by
  rw [stateWithBody_run, (heading_complete hw hd h hj.noMarker).fails_bind_iff, Matcher.fails_bind]
  exact .inl (fails_token.2 (hj.lacks (by decide)))

theorem stateNameOnly_complete (hw : AllWorded tokens) {d : HeadingTree} (hd : d.Valid) (h : Spans tokens i d.tokens j)
    (hj : Boundary tokens j) : stateNameOnly.run.Gives tokens i { heading := d.value } j := by
  rw [stateNameOnly_run]
  exact Matcher.gives_bind.2 ⟨d.value, j, heading_complete hw hd h hj.noMarker, Matcher.gives_pure.2 ⟨rfl, rfl⟩⟩

/-- What is read of a state, assembled. -/
theorem gives_stateOf {st : Rule Item} {draft : Draft}
    (h : (Rule.oneOf [stateWithBody st, stateNameOnly]).run.Gives tokens i draft j) :
    (stateOf st).run.Gives tokens i (Assembly.assemble draft) j := by
  rw [stateOf_run]
  simp only [Matcher.gives_bind, Matcher.gives_remark, Matcher.gives_pure]
  exact ⟨draft, j, h, (), j, rfl, rfl, rfl⟩

theorem draft_complete_bare (hw : AllWorded tokens) {st : Rule Item} {d : HeadingTree} (hd : d.Valid)
    (h : Spans tokens i d.tokens j) (hj : Boundary tokens j) :
    (Rule.oneOf [stateWithBody st, stateNameOnly]).run.Gives tokens i { heading := d.value } j :=
  Rule.gives_oneOf_pair.2 (.inr ⟨stateWithBody_fails hw hd h hj, stateNameOnly_complete hw hd h hj⟩)

theorem stateOf_complete_bare (hw : AllWorded tokens) {st : Rule Item} {d : HeadingTree} (hd : d.Valid)
    (h : Spans tokens i d.tokens j) (hj : Boundary tokens j) :
    (stateOf st).run.Gives tokens i (StateTree.bare d).node j := gives_stateOf (draft_complete_bare hw hd h hj)

theorem stateWithBody_complete {st : Rule Item} {h : Heading} {opening closing : Token} {items : List Item} {l m : Nat}
    (hh : heading.run.Gives tokens i h k) (hopen : indent.run.Gives tokens k opening l)
    (hmany : st.run.many.Gives tokens l items m) (hclose : dedent.run.Gives tokens m closing j) :
    (stateWithBody st).run.Gives tokens i { heading := h, body := items } j := by
  rw [stateWithBody_run]
  simp only [Matcher.gives_bind, Matcher.gives_pure]
  exact ⟨h, k, hh, opening, l, hopen, items, m, hmany, closing, j, hclose, rfl, rfl⟩

/-- **Where the parts of a state with a block stand**, when the statements of its block are read, and no statement
begins with its end. -/
theorem block_parts (hw : AllWorded tokens) {st : Rule Item} {d : HeadingTree} {opening closing : Token}
    {b : BodyTree} (hv : (StateTree.block d opening b closing).Valid)
    (h : Spans tokens i (StateTree.block d opening b closing).tokens j)
    (hb : ∀ {i j}, Spans tokens i b.tokens j → tokens[j]? = some closing → Repeats st.run tokens i b.items j)
    (hst : ∀ {i}, tokens[i]? = some closing → st.run.Fails tokens i) :
    ∃ k l, heading.run.Gives tokens i d.value k ∧ indent.run.Gives tokens k opening (k + 1) ∧
      Spans tokens (k + 1) b.tokens l ∧ st.run.many.Gives tokens (k + 1) b.items l ∧ tokens[l]? = some closing ∧
      dedent.run.Gives tokens l closing j := by
  obtain ⟨hd, hko, -, hkc⟩ := hv
  obtain ⟨k, sd, hopen, h⟩ := spans_append.1 h
  obtain ⟨l, sb, hclose, rfl⟩ := spans_append.1 h
  have noMarker : NoMarker tokens k :=
    ⟨.of_kind hopen (by simp [hko]), .of_kind hopen (by simp [hko]), .of_kind hopen (by simp [hko])⟩
  have hmany : st.run.many.Gives tokens (k + 1) b.items l :=
    Matcher.gives_many_of_repeats (hb sb hclose) (.inr (hst hclose))
  exact ⟨k, l, heading_complete hw hd sd noMarker, Matcher.gives_expect.2 ⟨hopen, hko, rfl⟩, sb, hmany, hclose,
    Matcher.gives_expect.2 ⟨hclose, hkc, rfl⟩⟩

/-- **A state with a block is read** when the statements of its block are, and no statement begins with its end. -/
theorem stateOf_complete_block (hw : AllWorded tokens) {st : Rule Item} {d : HeadingTree} {opening closing : Token}
    {b : BodyTree} (hv : (StateTree.block d opening b closing).Valid)
    (h : Spans tokens i (StateTree.block d opening b closing).tokens j)
    (hb : ∀ {i j}, Spans tokens i b.tokens j → tokens[j]? = some closing → Repeats st.run tokens i b.items j)
    (hst : ∀ {i}, tokens[i]? = some closing → st.run.Fails tokens i) :
    (stateOf st).run.Gives tokens i (StateTree.block d opening b closing).node j := by
  obtain ⟨k, l, hh, hopen, -, hmany, -, hclose⟩ := block_parts hw hv h hb hst
  exact gives_stateOf (Rule.gives_oneOf_pair.2 (.inl (stateWithBody_complete hh hopen hmany hclose)))

theorem stateOf_fails {st : Rule Item} (h : Lacks tokens i .identifier) : (stateOf st).run.Fails tokens i := by
  rw [stateOf_run, Matcher.fails_bind, Rule.fails_oneOf_pair, stateWithBody_run, stateNameOnly_run,
    Matcher.fails_bind, Matcher.fails_bind]
  exact .inl ⟨.inl (heading_fails h), .inl (heading_fails h)⟩

/-! ## Statements -/

theorem gives_statementOf_transition {st : Rule Item} {e : Entry} (h : transition.run.Gives tokens i e j) :
    (statementOf st).run.Gives tokens i (.entry e) j := by
  rw [statementOf_run]
  exact Rule.gives_oneOf_pair.2 (.inl (Rule.gives_map.2 ⟨e, h, rfl⟩))

theorem gives_statementOf_state {st : Rule Item} {n : Node} (hf : transition.run.Fails tokens i)
    (h : (stateOf st).run.Gives tokens i n j) : (statementOf st).run.Gives tokens i (.child n) j := by
  rw [statementOf_run]
  exact Rule.gives_oneOf_pair.2 (.inr ⟨Rule.fails_map.2 hf, Rule.gives_map.2 ⟨n, h, rfl⟩⟩)

/-- **No statement begins with the end of a block.** -/
theorem statementUpTo_fails {n : Nat} {t : Token} (h : tokens[i]? = some t) (hk : t.kind = .dedent) :
    (statementUpTo (n + 1)).run.Fails tokens i := by
  rw [statementUpTo_succ, statementOf_run, Rule.fails_oneOf_pair, Rule.fails_map, Rule.fails_map]
  refine ⟨transition_fails fun u hu => ?_, stateOf_fails (.of_kind h (by simp [hk]))⟩
  rw [h, Option.some.injEq] at hu
  subst hu
  simp [hk]

/-- **A name that a derivation takes for a state begins no transition.** -/
theorem transition_fails_of_state {s : StateTree} {rest : BodyTree} (hs : s.Valid)
    (ha : ¬ ArrowBehind s.heading.name (s.tokens ++ rest.tokens).tail)
    (h : Spans tokens i (s.tokens ++ rest.tokens) j) {t : Token} (hj : tokens[j]? = some t) (hk : t.kind = .dedent) :
    transition.run.Fails tokens i := by
  obtain ⟨tl, htl⟩ := s.tokens_eq
  rw [htl, List.cons_append] at h
  rw [htl, List.cons_append, List.tail_cons] at ha
  refine transition_fails fun u hu => ?_
  rw [h.1, Option.some.injEq] at hu
  subst hu
  refine ⟨by simp [hs.heading.name], fun _ a hat hka hla => ?_⟩
  cases hts : tl ++ rest.tokens with
  | nil =>
    rw [hts] at h
    obtain rfl : i + 1 = j := h.2
    rw [hj, Option.some.injEq] at hat
    subst hat
    rw [hk] at hka
    cases hka
  | cons x xs =>
    rw [hts] at h
    rw [h.2.1, Option.some.injEq] at hat
    subst hat
    exact ha ⟨x, by simp [hts], hka, hla⟩

mutual

theorem statementUpTo_complete (hw : AllWorded tokens) {closing : Token} (hkc : closing.kind = .dedent) :
    ∀ (b : BodyTree) (n : Nat) {i j : Nat}, b.Valid → b.Eager → b.depth ≤ n → Spans tokens i b.tokens j →
      tokens[j]? = some closing → Repeats (statementUpTo (n + 1)).run tokens i b.items j
  | .nil, n, i, j, _, _, _, h, _ => by
    obtain rfl : i = j := h
    exact .nil i
  | .transition l rest, n, i, j, ⟨hl, hr⟩, he, hn, h, hj => by
    obtain ⟨k, sl, sr⟩ := spans_append.1 h
    have hk := hr.boundary sr (boundary_of_dedent hj hkc)
    have hg : (statementUpTo (n + 1)).run.Gives tokens i (.entry l.value) k :=
      gives_statementOf_transition (transition_complete hw hl sl hk.noLabel)
    obtain ⟨inside, moves⟩ := sl.lt l.tokens_ne_nil
    exact .cons hg inside moves (statementUpTo_complete hw hkc rest n hr he hn sr hj)
  | .state s rest, n, i, j, ⟨hs, hr⟩, ⟨es, ha, er⟩, hn, h, hj => by
    have hf := transition_fails_of_state hs ha h hj hkc
    obtain ⟨k, ss, sr⟩ := spans_append.1 h
    have hk := hr.boundary sr (boundary_of_dedent hj hkc)
    have hdepth : s.depth ≤ n ∧ rest.depth ≤ n := Nat.max_le.1 hn
    have hg : (statementUpTo (n + 1)).run.Gives tokens i (.child s.node) k :=
      gives_statementOf_state hf (stateOf_statementUpTo_complete hw s n hs es hdepth.1 ss hk)
    obtain ⟨inside, moves⟩ := ss.lt s.tokens_ne_nil
    exact .cons hg inside moves (statementUpTo_complete hw hkc rest n hr er hdepth.2 sr hj)

theorem stateOf_statementUpTo_complete (hw : AllWorded tokens) :
    ∀ (s : StateTree) (n : Nat) {i j : Nat}, s.Valid → s.Eager → s.depth ≤ n → Spans tokens i s.tokens j →
      Boundary tokens j → (stateOf (statementUpTo n)).run.Gives tokens i s.node j
  | .bare _, _, _, _, hs, _, _, h, hj => stateOf_complete_bare hw hs h hj
  | .block _ _ b _, n + 1, _, _, hs, es, hn, h, _ =>
    stateOf_complete_block hw hs h
      (statementUpTo_complete hw hs.2.2.2 b n hs.2.2.1 es (Nat.le_of_succ_le_succ hn))
      (fun hi => statementUpTo_fails hi hs.2.2.2)

end

/-! ## Charts -/

theorem statements_complete (hw : AllWorded tokens) {closing : Token} (hkc : closing.kind = .dedent) {b : BodyTree}
    (hb : b.Valid) (eb : b.Eager) (h : Spans tokens i b.tokens j) (hj : tokens[j]? = some closing) :
    Repeats statement.run tokens i b.items j := by
  have hdepth : b.depth ≤ tokens.size := by
    have := b.depth_le
    have := h.length
    have := (Array.getElem?_eq_some_iff.1 hj).1
    omega
  exact (statementUpTo_complete hw hkc b tokens.size hb eb hdepth h hj).mono gives_statement_iff.2

theorem statement_fails {t : Token} (h : tokens[i]? = some t) (hk : t.kind = .dedent) :
    statement.run.Fails tokens i := by
  obtain ⟨f, hf⟩ := @statementUpTo_fails tokens i tokens.size t h hk
  exact ⟨f, by rw [statement_run, hf]⟩

theorem state_complete (hw : AllWorded tokens) {s : StateTree} (hs : s.Valid) (es : s.Eager)
    (h : Spans tokens i s.tokens j) (hj : Boundary tokens j) : state.run.Gives tokens i s.node j := by
  cases s with
  | bare d => exact stateOf_complete_bare hw hs h hj
  | block d opening b closing =>
    exact stateOf_complete_block hw hs h (statements_complete hw hs.2.2.2 hs.2.2.1 es)
      (fun hclose => statement_fails hclose hs.2.2.2)

theorem states_complete (hw : AllWorded tokens) : ∀ {ss : List StateTree} {i : Nat}, (∀ s ∈ ss, s.Valid) →
    (∀ s ∈ ss, s.Eager) → Spans tokens i (ss.flatMap StateTree.tokens) j → Boundary tokens j →
      Repeats state.run tokens i (ss.map StateTree.node) j
  | [], i, _, _, h, _ => by
    obtain rfl : i = j := h
    exact .nil i
  | s :: ss, i, hss, ess, h, hj => by
    obtain ⟨hs, hss⟩ := List.forall_mem_cons.1 hss
    obtain ⟨es, ess⟩ := List.forall_mem_cons.1 ess
    obtain ⟨k, sp, sps⟩ := spans_append.1 h
    obtain ⟨inside, moves⟩ := sp.lt s.tokens_ne_nil
    exact .cons (state_complete hw hs es sp (boundary_of_states hss sps hj)) inside moves
      (states_complete hw hss ess sps hj)

/-- **Where the parts of a chart stand**: its first state and the others behind it, up to the end of the block around
them or to the end of the input. -/
theorem chart_parts (hw : AllWorded tokens) {d : ChartTree} (hd : d.Valid) (he : d.Eager)
    (h : d.tokens = tokens.toList) : ∃ lead i j k, indent.run.optional.Gives tokens 0 lead i ∧
      Spans tokens i d.first.tokens j ∧ state.run.Gives tokens i d.first.node j ∧
      Spans tokens j (d.rest.flatMap StateTree.tokens) k ∧ state.run.many.Gives tokens j (d.rest.map StateTree.node) k ∧
      (∀ t, tokens[k]? = some t → t.kind = .dedent) ∧ (closeLead lead).Gives tokens k () tokens.size := by
  obtain ⟨frame, first, rest⟩ := d
  have hall : Spans tokens 0 (ChartTree.tokens ⟨frame, first, rest⟩) tokens.size := spans_all_iff.2 h
  obtain ⟨hs, hss⟩ := List.forall_mem_cons.1 hd.states
  obtain ⟨es, ess⟩ := List.forall_mem_cons.1 he
  have states : ∀ {i k}, Spans tokens i ((first :: rest).flatMap StateTree.tokens) k →
      (∀ t, tokens[k]? = some t → t.kind = .dedent) →
        ∃ j, Spans tokens i first.tokens j ∧ state.run.Gives tokens i first.node j ∧
          Spans tokens j (rest.flatMap StateTree.tokens) k ∧
          state.run.many.Gives tokens j (rest.map StateTree.node) k := by
    intro i k hspan hk
    have hb : Boundary tokens k := fun t ht => .inr (.inr (hk t ht))
    have hstop : state.run.Fails tokens k := stateOf_fails fun t ht => by simp [hk t ht]
    obtain ⟨j, sp, sps⟩ := spans_append.1 hspan
    exact ⟨j, sp, state_complete hw hs es sp (boundary_of_states hss sps hb), sps,
      Matcher.gives_many_of_repeats (states_complete hw hss ess sps hb) (.inr hstop)⟩
  cases frame with
  | none =>
    have hk : ∀ t, tokens[tokens.size]? = some t → t.kind = .dedent := by simp
    obtain ⟨j, sp, hfirst, sps, hrest⟩ := states hall hk
    have noIndent : Lacks tokens 0 .indent := by
      obtain ⟨tl, htl⟩ := first.tokens_eq
      have hspan : Spans tokens 0 (first.tokens ++ rest.flatMap StateTree.tokens) tokens.size := hall
      rw [htl] at hspan
      exact .of_kind hspan.1 (by simp [hs.heading.name])
    exact ⟨none, 0, j, tokens.size, gives_marker.2 ⟨by simp, rfl, fun _ => noIndent⟩, sp, hfirst, sps, hrest, hk,
      Matcher.gives_pure.2 ⟨rfl, rfl⟩⟩
  | some p =>
    obtain ⟨opening, closing⟩ := p
    obtain ⟨hopen, h⟩ := hall
    obtain ⟨k, hspan, hclose, hlast⟩ := spans_append.1 h
    obtain ⟨hko, hkc⟩ := hd.frame (opening, closing) rfl
    have hk : ∀ t, tokens[k]? = some t → t.kind = .dedent := by
      intro t ht
      rw [hclose, Option.some.injEq] at ht
      exact ht ▸ hkc
    obtain ⟨j, sp, hfirst, sps, hrest⟩ := states hspan hk
    have hlead : (closeLead (some opening)).Gives tokens k () tokens.size := by
      simp only [closeLead, dedent, Rule.expect, Matcher.gives_bind, Matcher.gives_expect, Matcher.gives_pure]
      exact ⟨closing, k + 1, ⟨hclose, hkc, rfl⟩, trivial, hlast⟩
    exact ⟨some opening, 1, j, k, gives_marker.2 ⟨by simpa using hko, ⟨hopen, rfl⟩, by simp⟩, sp, hfirst, sps, hrest,
      hk, hlead⟩

/-- **An eager derivation of the whole input is what the rule for a chart reads.** -/
theorem chart_complete (hw : AllWorded tokens) {d : ChartTree} (hd : d.Valid) (he : d.Eager)
    (h : d.tokens = tokens.toList) : chart.run.Gives tokens 0 d.nodes tokens.size := by
  obtain ⟨lead, i, j, k, hlead, -, hfirst, -, hrest, -, hclose⟩ := chart_parts hw hd he h
  have hend : tokens[tokens.size]? = none := Array.getElem?_eq_none_iff.2 (Nat.le_refl _)
  rw [chart_run]
  simp only [Matcher.gives_bind, Matcher.gives_pure]
  exact ⟨lead, i, hlead, d.first.node, j, hfirst, d.rest.map StateTree.node, k, hrest, (), tokens.size, hclose, (),
    tokens.size, Matcher.gives_atEnd.2 ⟨hend, rfl⟩, rfl, rfl⟩

end Grammar
end Statechart
