import Statechart.Proofs.Grammar.Evaluation
import Statechart.Proofs.Grammar.Sound
/-!
# Ending — the rules of the notation come to an end

A state in a state is two tokens further on, so statements that may nest as deep as there are tokens left never get to
the bottom of their count (`statementUpTo_ends`).  Counting further then changes nothing, and a statement is read as a
transition or a state that holds statements, with no count at all (`statement_eq`).  From there every rule of the
notation ends, by induction on the tokens that are left.
-/
namespace Statechart

/-- A name, a guard or an action carries a text, which may be empty. -/
def Token.Labelled (t : Token) : Prop :=
  t.kind = .identifier ∨ t.kind = .condition ∨ t.kind = .action → t.text.isSome

instance (t : Token) : Decidable t.Labelled := inferInstanceAs (Decidable (_ → _))

theorem Token.Worded.labelled {t : Token} (h : t.Worded) : t.Labelled := fun hk => by rw [h.text_eq hk]; rfl

namespace Matcher

variable {α β : Type} {tokens : Array Token} {i : Nat}

theorem bind_congr_left {p q : Matcher α} {next : α → Matcher β} (h : p tokens i = q tokens i) :
    (p >>= next) tokens i = (q >>= next) tokens i := by
  simp only [Bind.bind, andThen, h]

theorem bind_congr_right {p : Matcher α} {next next' : α → Matcher β}
    (h : ∀ a j, p.Gives tokens i a j → next a tokens j = next' a tokens j) :
    (p >>= next) tokens i = (p >>= next') tokens i := by
  simp only [Bind.bind, andThen]
  rcases hrun : p tokens i with ⟨outcome, t⟩
  cases outcome with
  | matched a j => simp only [h a j (congrArg Prod.fst hrun)]
  | failed f => rfl
  | unfit => rfl

theorem repeatUpTo_congr {p q : Matcher α} (forward : ∀ {k a k'}, p.Gives tokens k a k' → k ≤ k') :
    ∀ (limit : Nat) {i : Nat}, (∀ k, i ≤ k → k < tokens.size → p tokens k = q tokens k) →
      repeatUpTo p limit tokens i = repeatUpTo q limit tokens i
  | 0, _, _ => rfl
  | limit + 1, i, h => by
    unfold repeatUpTo
    by_cases hend : tokens.size ≤ i
    · rw [if_pos hend, if_pos hend]
    · rw [if_neg hend, if_neg hend, ← h i (Nat.le_refl i) (Nat.lt_of_not_le hend)]
      rcases hrun : p tokens i with ⟨outcome, t⟩
      cases outcome with
      | failed f => rfl
      | unfit => rfl
      | matched a j =>
        have hij : i ≤ j := forward (congrArg Prod.fst hrun)
        simp only [repeatUpTo_congr forward limit fun k hk => h k (Nat.le_trans hij hk)]

theorem many_congr {p q : Matcher α} (forward : ∀ {k a k'}, p.Gives tokens k a k' → k ≤ k')
    (h : ∀ k, i ≤ k → k < tokens.size → p tokens k = q tokens k) : p.many tokens i = q.many tokens i :=
  repeatUpTo_congr forward _ h

end Matcher

namespace Rule

variable {α β : Type} {tokens : Array Token} {i : Nat} {r r' s s' : Rule α}

theorem name_map {f : α → β} : (r.map f).name = r.name := rfl

theorem oneOf_pair_congr (hname : r.name = r'.name) (h : r.run tokens i = r'.run tokens i) :
    (oneOf [r, s]).run tokens i = (oneOf [r', s]).run tokens i := by
  simp only [oneOf, firstOf, List.map_cons, List.map_nil, hname, h]

theorem oneOf_pair_congr_right (hname : s.name = s'.name) (h : s.run tokens i = s'.run tokens i) :
    (oneOf [r, s]).run tokens i = (oneOf [r, s']).run tokens i := by
  simp only [oneOf, firstOf, List.map_cons, List.map_nil, hname, h]

end Rule

namespace Grammar

open Matcher (Ends Gives look)

variable {tokens : Array Token} {i j : Nat}

/-- Every name, guard and action of an array of tokens carries a text. -/
def AllLabelled (tokens : Array Token) : Prop := ∀ t ∈ tokens, t.Labelled

theorem AllWorded.allLabelled (h : AllWorded tokens) : AllLabelled tokens := fun t ht => (h t ht).labelled

theorem AllLabelled.isSome {t : Token} (hl : AllLabelled tokens) (h : tokens[i]? = some t)
    (hk : t.kind = .identifier ∨ t.kind = .condition ∨ t.kind = .action) : t.text.isSome :=
  hl t (Array.mem_of_getElem? h) hk

/-! ## Headings and transitions -/

theorem ends_word {kind : TokenKind} (hi : i ≤ tokens.size) : ((Rule.expect kind).map Token.text).run.Ends tokens i :=
  Rule.ends_map (Matcher.ends_expect hi)

theorem ends_wordOn {kind : TokenKind} {line : Int} (hi : i ≤ tokens.size) :
    (((Rule.expect kind).map Token.text).onLine line).run.Ends tokens i := Rule.ends_onLine hi (ends_word hi)

theorem ends_marker {kind : TokenKind} (hi : i ≤ tokens.size) : (Rule.expect kind).run.optional.Ends tokens i :=
  .optional hi (Matcher.ends_expect hi)

theorem ends_present {o : Option Text} (ho : o.isSome) (hi : i ≤ tokens.size) : (present o).Ends tokens i := by
  obtain ⟨s, rfl⟩ := Option.isSome_iff_exists.1 ho
  exact Matcher.ends_pure hi

theorem ends_entryOf {event : Option (Option Text)} {target cond : Option Text} {actions : List (Option Text)}
    (hevent : (event.getD (some Keyed.collecting)).isSome) (htarget : target.isSome) (hactions : ∀ a ∈ actions, a.isSome)
    (hi : i ≤ tokens.size) : (entryOf event target cond actions).Ends tokens i := by
  have loop : ∀ (l : List (Option Text)) (before : List Text) {k : Nat}, (∀ a ∈ l, a.isSome) → k ≤ tokens.size →
      (List.mapM.loop present l before).Ends tokens k := by
    intro l
    induction l with
    | nil =>
      intro before k _ hk
      exact Matcher.ends_pure hk
    | cons a l ih =>
      intro before k hl hk
      obtain ⟨ha, hl⟩ := List.forall_mem_cons.1 hl
      exact (ends_present ha hk).bind fun _ _ _ _ hj => ih _ hl hj
  refine (ends_present htarget hi).bind fun _ _ _ _ hi => ?_
  refine (ends_present hevent hi).bind fun _ _ _ _ hi => ?_
  exact (loop actions [] hactions hi).bind fun _ _ _ _ hi => Matcher.ends_pure hi

/-- **The rule for a transition ends.** -/
theorem transition_ends (hl : AllLabelled tokens) (hi : i ≤ tokens.size) : transition.run.Ends tokens i := by
  rw [transition_run]
  refine (Matcher.ends_look hi).bind fun first _ _ _ hi => ?_
  refine (Ends.optional hi (ends_word hi)).bind fun _ j hevent _ hi => ?_
  obtain ⟨event, rfl, hkevent, sevent, -⟩ := gives_optionalWord.1 hevent
  refine (Rule.ends_onLine hi (Matcher.ends_expect hi)).bind fun _ _ _ _ hi => ?_
  refine (ends_wordOn hi).bind fun _ _ htarget _ hi => ?_
  obtain ⟨dest, hto, hkto, -, rfl, rfl⟩ := gives_wordOn.1 htarget
  refine (Matcher.ends_look hi).bind fun next _ _ _ hi => ?_
  split
  · exact Matcher.ends_fail hi
  · refine (Ends.optional hi (ends_wordOn hi)).bind fun _ _ _ _ hi => ?_
    refine (Matcher.ends_many (fun k _ hk => ends_wordOn (Nat.le_of_lt hk)) hi).bind fun _ _ hactions _ hi => ?_
    obtain ⟨actions, sactions, hacts, rfl⟩ := spans_of_many hactions
    refine ends_entryOf ?_ (hl.isSome hto (.inl hkto)) (fun a ha => ?_) hi
    · cases event with
      | none => rfl
      | some t => exact hl.isSome sevent.1 (.inl (hkevent t rfl))
    · obtain ⟨t, ht, rfl⟩ := List.mem_map.1 ha
      exact hl t (sactions.mem t ht) (.inr (.inr (hacts t ht).1))

/-- **The rule for a heading ends.** -/
theorem heading_ends (hl : AllLabelled tokens) (hi : i ≤ tokens.size) : heading.run.Ends tokens i := by
  rw [heading_run]
  refine (Matcher.ends_look hi).bind fun o _ _ _ hi => ?_
  cases o with
  | none => exact Matcher.ends_fail hi
  | some token =>
    refine (ends_word hi).bind fun _ _ hword _ hi => ?_
    obtain ⟨name, hname, hk, rfl, rfl⟩ := gives_word.1 hword
    refine (ends_marker hi).bind fun _ _ _ _ hi => ?_
    refine (ends_marker hi).bind fun _ _ _ _ hi => ?_
    refine (ends_marker hi).bind fun _ _ _ _ hi => ?_
    exact (ends_present (hl.isSome hname (.inl hk)) hi).bind fun _ _ _ _ hi => Matcher.ends_pure hi

/-! ## What is read -/

theorem heading_moves {h : Heading} (hg : heading.run.Gives tokens i h j) : i < j := by
  simp only [heading_run, Matcher.gives_bind, Matcher.gives_look] at hg
  obtain ⟨o, _, ⟨-, rfl⟩, hg⟩ := hg
  cases o with
  | none => exact absurd hg Matcher.not_gives_fail
  | some token =>
    simp only [headingAt, identifier, parallelMarker, finalMarker, initialMarker, Matcher.gives_bind, gives_word,
      gives_marker, gives_present, Matcher.gives_pure] at hg
    obtain ⟨_, _, ⟨_, -, -, -, rfl⟩, _, _, ⟨-, sp, -⟩, _, _, ⟨-, sf, -⟩, _, _, ⟨-, sm, -⟩, _, _, ⟨-, rfl⟩, -, rfl⟩ := hg
    have := sp.le
    have := sf.le
    have := sm.le
    omega

theorem transition_moves {e : Entry} (hg : transition.run.Gives tokens i e j) : i < j := by
  simp only [transition_run, identifier, arrow, Matcher.gives_bind, Matcher.gives_look, gives_optionalWord, gives_wordOn,
    gives_tokenOn] at hg
  obtain ⟨_, _, ⟨-, rfl⟩, _, _, ⟨_, -, -, sevent, -⟩, _, _, ⟨-, -, -, rfl⟩, _, _, ⟨_, -, -, -, -, rfl⟩, _, _, ⟨-, rfl⟩,
    hg⟩ := hg
  split at hg
  · exact absurd hg Matcher.not_gives_fail
  · simp only [condition, action, Matcher.gives_bind, gives_entryOf] at hg
    obtain ⟨_, _, hcond, _, _, hactions, _, _, _, -, -, -, -, rfl⟩ := hg
    obtain ⟨_, -, -, sguard, -⟩ := spans_of_optionalWordOn hcond
    obtain ⟨_, sactions, -⟩ := spans_of_many hactions
    have := sevent.le
    have := sguard.le
    have := sactions.le
    omega

/-- A state reads its name, if the statements in it do not go back. -/
theorem stateOf_moves {st : Rule Item} (hst : ∀ {k item k'}, st.run.Gives tokens k item k' → k ≤ k') {n : Node}
    (hg : (stateOf st).run.Gives tokens i n j) : i < j := by
  simp only [stateOf_run, Matcher.gives_bind, Matcher.gives_remark, Matcher.gives_pure] at hg
  obtain ⟨_, _, hd, _, _, rfl, -, rfl⟩ := hg
  rcases Rule.gives_oneOf_pair.1 hd with hd | ⟨-, hd⟩
  · simp only [stateWithBody_run, indent, dedent, Rule.expect, Matcher.gives_bind, Matcher.gives_expect,
      Matcher.gives_pure] at hd
    obtain ⟨_, _, hh, _, _, ⟨-, -, rfl⟩, _, _, hmany, _, _, ⟨-, -, rfl⟩, -, rfl⟩ := hd
    have hbody := (Matcher.repeats_of_gives_many hst hmany).keeps (fun _ _ _ hk hg => Nat.le_trans hk (hst hg))
      (Nat.le_refl _)
    have := heading_moves hh
    omega
  · simp only [stateNameOnly_run, Matcher.gives_bind, Matcher.gives_pure] at hd
    obtain ⟨_, _, hh, -, rfl⟩ := hd
    exact heading_moves hh

theorem statementOf_moves {st : Rule Item} (hst : ∀ {k item k'}, st.run.Gives tokens k item k' → k ≤ k') {item : Item}
    (hg : (statementOf st).run.Gives tokens i item j) : i < j := by
  rw [statementOf_run] at hg
  rcases Rule.gives_oneOf_pair.1 hg with hg | ⟨-, hg⟩
  · obtain ⟨_, he, -⟩ := Rule.gives_map.1 hg
    exact transition_moves he
  · obtain ⟨_, hn, -⟩ := Rule.gives_map.1 hg
    exact stateOf_moves hst hn

theorem statementUpTo_moves : ∀ (n : Nat) {i j : Nat} {item : Item},
    (statementUpTo n).run.Gives tokens i item j → i < j
  | 0, _, _, _, h => absurd h Matcher.not_gives_unfit
  | n + 1, _, _, _, h => statementOf_moves (fun hg => Nat.le_of_lt (statementUpTo_moves n hg)) h

/-- **A statement reads a token.** -/
theorem statement_moves {item : Item} (hg : statement.run.Gives tokens i item j) : i < j :=
  statementUpTo_moves (tokens.size + 1) (gives_statement_iff.1 hg)

theorem state_moves {n : Node} (hg : state.run.Gives tokens i n j) : i < j :=
  stateOf_moves (fun hg => Nat.le_of_lt (statement_moves hg)) hg

/-! ## States and statements -/

variable {st st' : Rule Item}

theorem stateWithBody_ends (hl : AllLabelled tokens) (hst : ∀ k, i + 2 ≤ k → k < tokens.size → st.run.Ends tokens k)
    (hi : i ≤ tokens.size) : (stateWithBody st).run.Ends tokens i := by
  rw [stateWithBody_run]
  refine (heading_ends hl hi).bind fun _ j hh _ hi => ?_
  have hj := heading_moves hh
  refine (Matcher.ends_expect hi).bind fun _ _ hindent _ hi => ?_
  obtain ⟨-, -, rfl⟩ := Matcher.gives_expect.1 hindent
  refine (Matcher.ends_many (fun k hk => hst k (by omega)) hi).bind fun _ _ _ _ hi => ?_
  exact (Matcher.ends_expect hi).bind fun _ _ _ _ hi => Matcher.ends_pure hi

theorem stateNameOnly_ends (hl : AllLabelled tokens) (hi : i ≤ tokens.size) : stateNameOnly.run.Ends tokens i := by
  rw [stateNameOnly_run]
  exact (heading_ends hl hi).bind fun _ _ _ _ hi => Matcher.ends_pure hi

/-- **A state ends if the statements from the second token behind it on do.** -/
theorem stateOf_ends (hl : AllLabelled tokens) (hst : ∀ k, i + 2 ≤ k → k < tokens.size → st.run.Ends tokens k)
    (hi : i ≤ tokens.size) : (stateOf st).run.Ends tokens i := by
  rw [stateOf_run]
  have hdraft : ∀ r ∈ [stateWithBody st, stateNameOnly], r.run.Ends tokens i := by
    simpa using ⟨stateWithBody_ends hl hst hi, stateNameOnly_ends hl hi⟩
  refine (Rule.ends_oneOf hi hdraft).bind fun _ _ _ _ hi => ?_
  exact (Matcher.ends_remark hi).bind fun _ _ _ _ hi => Matcher.ends_pure hi

theorem statementOf_ends (hl : AllLabelled tokens) (hst : ∀ k, i + 2 ≤ k → k < tokens.size → st.run.Ends tokens k)
    (hi : i ≤ tokens.size) : (statementOf st).run.Ends tokens i := by
  rw [statementOf_run]
  refine Rule.ends_oneOf hi ?_
  simpa using ⟨Rule.ends_map (transition_ends hl hi), Rule.ends_map (stateOf_ends hl hst hi)⟩

/-- **A statement ends if it may nest as deep as there are tokens left.** -/
theorem statementUpTo_ends (hl : AllLabelled tokens) : ∀ (n : Nat) {i : Nat}, i < tokens.size → tokens.size ≤ i + n →
    (statementUpTo n).run.Ends tokens i
  | 0, i, hi, h => by omega
  | n + 1, i, hi, h => by
    rw [statementUpTo_succ]
    exact statementOf_ends hl (fun k hk hsize => statementUpTo_ends hl n hsize (by omega)) (Nat.le_of_lt hi)

/-! ## Statements without a count -/

theorem name_stateOf (st : Rule Item) : (stateOf st).name = "state".toList := rfl

theorem stateWithBody_congr (hst : ∀ {k item k'}, st.run.Gives tokens k item k' → k ≤ k')
    (h : ∀ k, i + 2 ≤ k → k < tokens.size → st.run tokens k = st'.run tokens k) :
    (stateWithBody st).run tokens i = (stateWithBody st').run tokens i := by
  rw [stateWithBody_run, stateWithBody_run]
  refine Matcher.bind_congr_right fun _ j hh => ?_
  have hj := heading_moves hh
  refine Matcher.bind_congr_right fun _ k hindent => ?_
  obtain ⟨-, -, rfl⟩ := Matcher.gives_expect.1 hindent
  exact Matcher.bind_congr_left (Matcher.many_congr hst fun k hk => h k (by omega))

theorem statementOf_congr (hst : ∀ {k item k'}, st.run.Gives tokens k item k' → k ≤ k')
    (h : ∀ k, i + 2 ≤ k → k < tokens.size → st.run tokens k = st'.run tokens k) :
    (statementOf st).run tokens i = (statementOf st').run tokens i := by
  have hbody := stateWithBody_congr hst h
  have hstate : (stateOf st).run tokens i = (stateOf st').run tokens i := by
    rw [stateOf_run, stateOf_run]
    exact Matcher.bind_congr_left (Rule.oneOf_pair_congr rfl hbody)
  have hname : ((stateOf st).map Item.child).name = ((stateOf st').map Item.child).name := by
    rw [Rule.name_map, Rule.name_map, name_stateOf, name_stateOf]
  rw [statementOf_run, statementOf_run]
  exact Rule.oneOf_pair_congr_right hname (Matcher.bind_congr_left hstate)

/-- **Counting further than the tokens that are left changes nothing.** -/
theorem statementUpTo_stable : ∀ (n : Nat) {i : Nat}, i < tokens.size → tokens.size ≤ i + n →
    (statementUpTo n).run tokens i = (statementUpTo (n + 1)).run tokens i
  | 0, i, hi, h => by omega
  | n + 1, i, hi, h => by
    rw [statementUpTo_succ, statementUpTo_succ]
    exact statementOf_congr (fun hg => Nat.le_of_lt (statementUpTo_moves n hg)) fun k hk hsize =>
      statementUpTo_stable n hsize (by omega)

/-- **A statement is a transition or a state that holds statements.** -/
theorem statement_eq (tokens : Array Token) (i : Nat) :
    statement.run tokens i = (statementOf statement).run tokens i := by
  rw [statement_run, statementUpTo_succ]
  refine statementOf_congr (fun hg => Nat.le_of_lt (statementUpTo_moves tokens.size hg)) fun k hk hsize => ?_
  rw [statement_run]
  exact statementUpTo_stable tokens.size hsize (by omega)

/-- **The rule for a statement ends**: by induction on the tokens that are left. -/
theorem statement_ends (hl : AllLabelled tokens) {i : Nat} (hi : i ≤ tokens.size) : statement.run.Ends tokens i := by
  have hof : (statementOf statement).run.Ends tokens i :=
    statementOf_ends hl (fun k hk hsize => statement_ends hl (Nat.le_of_lt hsize)) hi
  exact hof.of_eq (statement_eq tokens i) .statement
termination_by tokens.size - i

theorem state_ends (hl : AllLabelled tokens) (hi : i ≤ tokens.size) : state.run.Ends tokens i :=
  stateOf_ends hl (fun _ _ hsize => statement_ends hl (Nat.le_of_lt hsize)) hi

/-- **The rule for a chart ends.** -/
theorem chart_ends (hl : AllLabelled tokens) (hi : i ≤ tokens.size) : chart.run.Ends tokens i := by
  rw [chart_run]
  refine (ends_marker hi).bind fun lead _ _ _ hi => ?_
  refine (state_ends hl hi).bind fun _ _ _ _ hi => ?_
  refine (Matcher.ends_many (fun _ _ hsize => state_ends hl (Nat.le_of_lt hsize)) hi).bind fun _ _ _ _ hi => ?_
  have hclose : ∀ {k}, k ≤ tokens.size → (closeLead lead).Ends tokens k := by
    intro k hk
    cases lead with
    | none => exact Matcher.ends_pure hk
    | some opening => exact (Matcher.ends_expect hk).bind fun _ _ _ _ hi => Matcher.ends_pure hi
  refine (hclose hi).bind fun _ _ _ _ hi => ?_
  exact (Matcher.ends_atEnd hi).bind fun _ _ _ _ hi => Matcher.ends_pure hi

end Grammar
end Statechart
