import Statechart.Proofs.Chart.Announced
import Statechart.Proofs.Grammar.Complete
import Statechart.Proofs.Grammar.Ending
import Statechart.Proofs.Rule.Told
/-!
# Remarked — what is remarked on while a chart is read

A state is remarked on when it is assembled, inside a rule that others are tried before and that may be tried and given
up itself.  But no rule is given up after a state was assembled in it: the rule for a transition assembles none, and
where a state is only named no block begins that could have held one.  So of a chart that is read each state is remarked
on once, in the order in which the states end (`ofText_remarked`).
-/
namespace Statechart
namespace Grammar

open Matcher (Gives Fails Quiet)

variable {tokens : Array Token} {i j k : Nat}

/-! ## Rules that remark on nothing -/

theorem quiet_word (kind : TokenKind) : ((Rule.expect kind).map Token.text).run.Quiet :=
  Rule.quiet_map (Matcher.quiet_expect kind) _

theorem quiet_present : ∀ o : Option Text, (present o).Quiet
  | none => Matcher.quiet_unfit
  | some t => Matcher.quiet_pure t

theorem quiet_entryOf (event : Option (Option Text)) (target cond : Option Text) (actions : List (Option Text)) :
    (entryOf event target cond actions).Quiet := by
  have loop : ∀ (l : List (Option Text)) (before : List Text), (List.mapM.loop present l before).Quiet := by
    intro l
    induction l with
    | nil => exact fun before => Matcher.quiet_pure _
    | cons a l ih => exact fun before => (quiet_present a).bind fun t => ih (t :: before)
  refine (quiet_present _).bind fun _ => (quiet_present _).bind fun _ => ?_
  exact (loop actions []).bind fun _ => Matcher.quiet_pure _

theorem transition_quiet : transition.run.Quiet := by
  rw [transition_run]
  refine Matcher.quiet_look.bind fun _ => ?_
  refine (quiet_word _).optional.bind fun _ => ?_
  refine (Rule.quiet_onLine (Matcher.quiet_expect _) _).bind fun _ => ?_
  refine (Rule.quiet_onLine (quiet_word _) _).bind fun _ => ?_
  refine Matcher.quiet_look.bind fun _ => ?_
  split
  · exact Matcher.quiet_fail _
  · refine (Rule.quiet_onLine (quiet_word _) _).optional.bind fun _ => ?_
    exact (Rule.quiet_onLine (quiet_word _) _).many.bind fun _ => quiet_entryOf _ _ _ _

theorem heading_quiet : heading.run.Quiet := by
  rw [heading_run]
  refine Matcher.quiet_look.bind fun o => ?_
  cases o with
  | none => exact Matcher.quiet_fail _
  | some token =>
    refine (quiet_word _).bind fun _ => ?_
    refine (Matcher.quiet_expect _).optional.bind fun _ => ?_
    refine (Matcher.quiet_expect _).optional.bind fun _ => ?_
    refine (Matcher.quiet_expect _).optional.bind fun _ => ?_
    exact (quiet_present _).bind fun _ => Matcher.quiet_pure _

theorem closeLead_quiet : ∀ lead : Option Token, (closeLead lead).Quiet
  | none => Matcher.quiet_pure ()
  | some _ => (Matcher.quiet_expect _).bind fun _ => Matcher.quiet_pure ()

theorem stateNameOnly_quiet : stateNameOnly.run.Quiet := by
  rw [stateNameOnly_run]
  exact heading_quiet.bind fun _ => Matcher.quiet_pure _

/-! ## What the rules remark on -/

variable {st : Rule Item}

/-- Assembling what was read of a state adds the remarks on it. -/
theorem told_stateOf {draft : Draft}
    (h : (Rule.oneOf [stateWithBody st, stateNameOnly]).run.Gives tokens i draft j) :
    (stateOf st).run.told tokens i =
      (Rule.oneOf [stateWithBody st, stateNameOnly]).run.told tokens i ++ Assembly.remarks draft := by
  have hremark : (Matcher.remark (Assembly.remarks draft)).Gives tokens j () j := rfl
  rw [stateOf_run, h.told_bind, hremark.told_bind, Matcher.quiet_pure]
  exact congrArg _ (List.append_nil _)

/-- The rule for a state with a block remarks on what is in the block. -/
theorem told_stateWithBody {h : Heading} {opening closing : Token} {items : List Item} {l m : Nat}
    (hh : heading.run.Gives tokens i h k) (hopen : indent.run.Gives tokens k opening l)
    (hmany : st.run.many.Gives tokens l items m) (hclose : dedent.run.Gives tokens m closing j) :
    (stateWithBody st).run.told tokens i = st.run.many.told tokens l := by
  rw [stateWithBody_run, hh.told_bind, hopen.told_bind, hmany.told_bind, hclose.told_bind, heading_quiet,
    show indent.run.told tokens k = [] from Matcher.quiet_expect _ tokens k,
    show dedent.run.told tokens m = [] from Matcher.quiet_expect _ tokens m, Matcher.quiet_pure]
  simp

theorem told_stateWithBody_bare (hw : AllWorded tokens) {d : HeadingTree} (hd : d.Valid) (h : Spans tokens i d.tokens j)
    (hj : Boundary tokens j) : (stateWithBody st).run.told tokens i = [] := by
  have hindent : indent.run.Fails tokens j := fails_token.2 (hj.lacks (by decide))
  rw [stateWithBody_run, (heading_complete hw hd h hj.noMarker).told_bind, hindent.told_bind, heading_quiet]
  exact Matcher.quiet_expect _ tokens j

/-- **Where no name stands, no state is remarked on.** -/
theorem told_state_of_lacks (h : Lacks tokens i .identifier) : state.run.told tokens i = [] := by
  have hh := heading_fails h
  have hbody : (stateWithBody statement).run.Fails tokens i := by
    rw [stateWithBody_run, Matcher.fails_bind]
    exact .inl hh
  have hdraft : (Rule.oneOf [stateWithBody statement, stateNameOnly]).run.Fails tokens i := by
    rw [Rule.fails_oneOf_pair, stateNameOnly_run, Matcher.fails_bind]
    exact ⟨hbody, .inl hh⟩
  unfold state
  rw [stateOf_run, hdraft.told_bind, Rule.told_oneOf_of_fails hbody, stateNameOnly_quiet, stateWithBody_run,
    hh.told_bind, heading_quiet, List.append_nil]

theorem told_statement (tokens : Array Token) (i : Nat) :
    statement.run.told tokens i = (statementOf statement).run.told tokens i := by
  unfold Matcher.told
  rw [statement_eq]

theorem told_statement_of_gives {e : Entry} (h : transition.run.Gives tokens i e j) :
    statement.run.told tokens i = [] := by
  rw [told_statement, statementOf_run, Rule.told_oneOf_of_gives (Rule.gives_map.2 ⟨e, h, rfl⟩), Rule.told_map]
  exact transition_quiet tokens i

/-- **A transition that was tried and not read adds nothing** to what is remarked on a state. -/
theorem told_statement_of_fails (h : transition.run.Fails tokens i) :
    statement.run.told tokens i = state.run.told tokens i := by
  rw [told_statement, statementOf_run, Rule.told_oneOf_of_fails (Rule.fails_map.2 h), Rule.told_map, Rule.told_map,
    transition_quiet, List.nil_append]
  rfl

theorem statement_forward {item : Item} (h : statement.run.Gives tokens i item j) : i ≤ j :=
  Nat.le_of_lt (statement_moves h)

theorem gives_statement {item : Item} (h : (statementOf statement).run.Gives tokens i item j) :
    statement.run.Gives tokens i item j := by
  unfold Gives
  rw [statement_eq]
  exact h

theorem told_statements_of_dedent {t : Token} (h : tokens[i]? = some t) (hk : t.kind = .dedent) :
    statement.run.many.told tokens i = [] := by
  have hlacks : Lacks tokens i .identifier := .of_kind h (by simp [hk])
  have htransition : transition.run.Fails tokens i := transition_fails fun u hu => by
    rw [h, Option.some.injEq] at hu
    subst hu
    simp [hk]
  refine (statement_fails h hk).told_many ?_
  rw [told_statement_of_fails htransition, told_state_of_lacks hlacks]

mutual

/-- By induction on the statements of a block. -/
theorem BodyTree.told (hw : AllWorded tokens) {closing : Token} (hkc : closing.kind = .dedent) :
    ∀ (b : BodyTree) {i j : Nat}, b.Valid → b.Eager → Spans tokens i b.tokens j → tokens[j]? = some closing →
      statement.run.many.told tokens i = b.remarks
  | .nil, i, j, _, _, h, hj => by
    obtain rfl : i = j := h
    exact told_statements_of_dedent hj hkc
  | .transition l rest, i, j, ⟨hl, hr⟩, er, h, hj => by
    obtain ⟨k, sl, sr⟩ := spans_append.1 h
    have hk := hr.boundary sr (boundary_of_dedent hj hkc)
    have hg := transition_complete hw hl sl hk.noLabel
    have hstatement : statement.run.Gives tokens i (.entry l.value) k :=
      gives_statement (gives_statementOf_transition hg)
    obtain ⟨inside, moves⟩ := sl.lt l.tokens_ne_nil
    rw [hstatement.told_many statement_forward inside moves, told_statement_of_gives hg, List.nil_append]
    exact BodyTree.told hw hkc rest hr er sr hj
  | .state s rest, i, j, ⟨hs, hr⟩, ⟨es, ha, er⟩, h, hj => by
    have hf := transition_fails_of_state hs ha h hj hkc
    obtain ⟨k, ss, sr⟩ := spans_append.1 h
    have hk := hr.boundary sr (boundary_of_dedent hj hkc)
    have hg := state_complete hw hs es ss hk
    have hstatement : statement.run.Gives tokens i (.child s.node) k :=
      gives_statement (gives_statementOf_state hf hg)
    obtain ⟨inside, moves⟩ := ss.lt s.tokens_ne_nil
    rw [hstatement.told_many statement_forward inside moves, told_statement_of_fails hf,
      StateTree.told hw s hs es ss hk, BodyTree.told hw hkc rest hr er sr hj]
    rfl

/-- **A state is remarked on once**, behind the states in it. -/
theorem StateTree.told (hw : AllWorded tokens) : ∀ (s : StateTree) {i j : Nat}, s.Valid → s.Eager →
    Spans tokens i s.tokens j → Boundary tokens j → state.run.told tokens i = s.remarks
  | .bare d, i, j, hd, _, h, hj => by
    unfold state
    rw [told_stateOf (draft_complete_bare hw hd h hj), Rule.told_oneOf_of_fails (stateWithBody_fails hw hd h hj),
      told_stateWithBody_bare hw hd h hj, stateNameOnly_quiet, Assembly.remarks_eq]
    rfl
  | .block d opening b closing, i, j, hs, eb, h, _ => by
    obtain ⟨k, l, hh, hopen, sb, hmany, hclosing, hclose⟩ := block_parts hw hs h
      (statements_complete hw hs.2.2.2 hs.2.2.1 eb) (fun hclose => statement_fails hclose hs.2.2.2)
    have hbody := stateWithBody_complete hh hopen hmany hclose
    unfold state
    rw [told_stateOf (Rule.gives_oneOf_pair.2 (.inl hbody)), Rule.told_oneOf_of_gives hbody,
      told_stateWithBody hh hopen hmany hclose, BodyTree.told hw hs.2.2.2 b hs.2.2.1 eb sb hclosing,
      Assembly.remarks_eq]
    rfl

end

theorem states_told (hw : AllWorded tokens) : ∀ {ss : List StateTree} {i : Nat}, (∀ s ∈ ss, s.Valid) →
    (∀ s ∈ ss, s.Eager) → Spans tokens i (ss.flatMap StateTree.tokens) j →
      (∀ t, tokens[j]? = some t → t.kind = .dedent) → state.run.many.told tokens i = ss.flatMap StateTree.remarks
  | [], i, _, _, h, hj => by
    obtain rfl : i = j := h
    have hlacks : Lacks tokens i .identifier := fun t ht => by simp [hj t ht]
    exact (stateOf_fails hlacks).told_many (told_state_of_lacks hlacks)
  | s :: ss, i, hss, ess, h, hj => by
    obtain ⟨hs, hss⟩ := List.forall_mem_cons.1 hss
    obtain ⟨es, ess⟩ := List.forall_mem_cons.1 ess
    obtain ⟨k, sp, sps⟩ := spans_append.1 h
    have hk := boundary_of_states hss sps fun t ht => .inr (.inr (hj t ht))
    obtain ⟨inside, moves⟩ := sp.lt s.tokens_ne_nil
    rw [(state_complete hw hs es sp hk).told_many (fun hg => Nat.le_of_lt (state_moves hg)) inside moves,
      s.told hw hs es sp hk, states_told hw hss ess sps hj, List.flatMap_cons]

/-- **The rule for a chart remarks on its states**, one behind the other. -/
theorem chart_told (hw : AllWorded tokens) {d : ChartTree} (hd : d.Valid) (he : d.Eager)
    (h : d.tokens = tokens.toList) : chart.run.told tokens 0 = d.states.flatMap StateTree.remarks := by
  obtain ⟨hs, hss⟩ := List.forall_mem_cons.1 hd.states
  obtain ⟨es, ess⟩ := List.forall_mem_cons.1 he
  obtain ⟨lead, i, j, k, hlead, sp, hfirst, sps, hrest, hk, hclose⟩ := chart_parts hw hd he h
  have hj := boundary_of_states hss sps fun t ht => .inr (.inr (hk t ht))
  have hindent : indent.run.optional.told tokens 0 = [] := (Matcher.quiet_expect _).optional tokens 0
  have hend : Rule.endOfInput.run.told tokens tokens.size = [] := Matcher.quiet_atEnd tokens tokens.size
  have hendGives : Rule.endOfInput.run.Gives tokens tokens.size () tokens.size :=
    Matcher.gives_atEnd.2 ⟨Array.getElem?_eq_none_iff.2 (Nat.le_refl _), rfl⟩
  rw [chart_run, hlead.told_bind, hfirst.told_bind, hrest.told_bind, hclose.told_bind, hendGives.told_bind, hindent,
    closeLead_quiet, hend, Matcher.quiet_pure, d.first.told hw hs es sp hj, states_told hw hss ess sps hk]
  simp [ChartTree.states]

end Grammar

open Grammar

namespace Reading

variable {rootId t : Text} {root : Node} {records : List Record}

/-- **The records of a chart that was read**: what the rule for a chart remarked on, and what there is to say of the
root, between the number of tokens and that of the states. -/
theorem records_of_tree (h : ofText rootId t = .ok (.tree root, records)) :
    ∃ ts, tokenize t = .ok ts ∧ ∃ states stop, chart.run.Gives (visible ts) 0 states stop ∧
      root = Assembly.root rootId states ∧
      records = .tokenized t.length ts.length ::
        ((chart.run.told (visible ts) 0 ++ Assembly.rootRemarks rootId states).map .remarked ++
          [.parsed root.id states.length]) := by
  unfold ofText at h
  split at h
  · cases h
  · rename_i ts hts
    unfold ofTokens at h
    rcases hrun : chart.run (visible ts) 0 with ⟨outcome, trace⟩
    rw [hrun] at h
    cases outcome with
    | failed f => cases h
    | unfit => cases h
    | matched states stop =>
      cases h
      refine ⟨ts, hts, states, stop, congrArg Prod.fst hrun, rfl, ?_⟩
      unfold Matcher.told
      rw [hrun]

end Reading

/-- **What is remarked on while a chart is read** depends on its derivation alone, whatever was tried and given up on
the way: of each state in the order in which they end, and of the root last, each child that is declared again and the
children marked, if there are several. -/
theorem ofText_remarked {rootId t : Text} {root : Node} {records : List Record}
    (h : Reading.ofText rootId t = .ok (.tree root, records)) :
    ∃ ts, tokenize t = .ok ts ∧ ∃ d : ChartTree, (d.Valid ∧ d.Eager ∧ d.tokens = seen ts) ∧
      root = Assembly.root rootId d.nodes ∧
      records.filter (fun r => r.level == .warning) = (d.remarks rootId).map .remarked := by
  obtain ⟨ts, hts, states, stop, hgives, hroot, hrecords⟩ := Reading.records_of_tree h
  have hw : AllWorded (visible ts) := allWorded_visible (worded_of_tokenize hts)
  obtain ⟨d, hd, he, htokens, rfl⟩ := chart_sound hw hgives
  have hwarning : ∀ rs : List Remark, (rs.map Record.remarked).filter (fun r => r.level == .warning) =
      rs.map Record.remarked := by
    intro rs
    refine List.filter_eq_self.2 fun r hr => ?_
    obtain ⟨remark, -, rfl⟩ := List.mem_map.1 hr
    rfl
  refine ⟨ts, hts, d, ⟨hd, he, htokens.trans (toList_visible ts)⟩, hroot, ?_⟩
  rw [hrecords, chart_told hw hd he htokens, rootRemarks_nodes]
  show List.filter _ (_ ++ _) = _
  rw [List.filter_append, hwarning]
  exact List.append_nil _

/-- A state declared again with its children, which are declared again and marked. -/
def overwritten : Text := "r\n  a*\n    x\n    x\n  b*\n  a*\nr".toList

theorem ofText_remarked_overwritten : ∃ root records,
    Reading.ofText ['m'] overwritten = .ok (.tree root, records) ∧
      records.filter (fun r => r.level == .warning) =
        [.remarked (.repeatedChild ['a'] ['x']), .remarked (.repeatedChild ['r'] ['a']),
          .remarked (.severalInitial ['r'] [['a'], ['b']]), .remarked (.repeatedChild ['m'] ['r'])] ∧
      ∃ ts, tokenize overwritten = .ok ts ∧ ∃ d : ChartTree, (d.Valid ∧ d.Eager ∧ d.tokens = seen ts) ∧
        root = Assembly.root ['m'] d.nodes ∧
        records.filter (fun r => r.level == .warning) = (d.remarks ['m']).map .remarked := by
  have htokens : tokenize overwritten = .ok
      [⟨.identifier, 1, 1, some ['r']⟩, ⟨.newline, 1, 2, none⟩, ⟨.indent, 2, 1, none⟩,
        ⟨.identifier, 2, 3, some ['a']⟩, ⟨.initial, 2, 4, none⟩, ⟨.newline, 2, 5, none⟩, ⟨.indent, 3, 1, none⟩,
        ⟨.identifier, 3, 5, some ['x']⟩, ⟨.newline, 3, 6, none⟩, ⟨.identifier, 4, 5, some ['x']⟩,
        ⟨.newline, 4, 6, none⟩, ⟨.dedent, 5, 1, none⟩, ⟨.identifier, 5, 3, some ['b']⟩, ⟨.initial, 5, 4, none⟩,
        ⟨.newline, 5, 5, none⟩, ⟨.identifier, 6, 3, some ['a']⟩, ⟨.initial, 6, 4, none⟩, ⟨.newline, 6, 5, none⟩,
        ⟨.dedent, 7, 1, none⟩, ⟨.identifier, 7, 1, some ['r']⟩] := by
    cbv
  have h : ∃ root records, Reading.ofText ['m'] overwritten = .ok (.tree root, records) ∧
      records.filter (fun r => r.level == .warning) =
        [.remarked (.repeatedChild ['a'] ['x']), .remarked (.repeatedChild ['r'] ['a']),
          .remarked (.severalInitial ['r'] [['a'], ['b']]), .remarked (.repeatedChild ['m'] ['r'])] := by
    unfold Reading.ofText
    rw [htokens]
    exact ⟨_, _, rfl, rfl⟩
  obtain ⟨root, records, hread, hwarnings⟩ := h
  exact ⟨root, records, hread, hwarnings, ofText_remarked hread⟩

end Statechart
