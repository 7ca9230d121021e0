import Statechart.Proofs.Grammar.Derivation
import Statechart.Proofs.Token.Calls
/-!
# Blocks — what a derivation opens it closes

In the tokens of a derivation every block is closed, and inside a block more were opened than closed.  So tokens that
begin a chart and close all they open break off between two states, or behind the markers of a name, and are a chart
themselves (`ChartTree.Valid.of_prefix`).
-/
namespace Statechart

variable {ts us : List Token}

/-- Blocks are opened before they are closed, and all of them are closed. -/
structure Balanced (ts : List Token) : Prop where
  opensFirst : OpensFirst ts
  closed : openings ts = closings ts

theorem prefix_append_cases {α : Type} {front l m : List α} (h : front <+: l ++ m) :
    front <+: l ∨ ∃ back, front = l ++ back ∧ back <+: m := by
  rcases List.prefix_or_prefix_of_prefix h (List.prefix_append l m) with h' | ⟨back, rfl⟩
  · exact .inl h'
  · exact .inr ⟨back, rfl, (List.prefix_append_right_inj l).1 h⟩

theorem countP_kind_of_words {kind : TokenKind} (hk : kind.isLayout = true) (h : ∀ t ∈ ts, t.kind.isLayout = false) :
    ts.countP (fun t => t.kind == kind) = 0 := by
  rw [List.countP_eq_zero]
  intro t ht heq
  have hlayout := h t ht
  rw [beq_iff_eq.1 heq, hk] at hlayout
  cases hlayout

theorem balanced_of_words (h : ∀ t ∈ ts, t.kind.isLayout = false) : Balanced ts := by
  have hopen : openings ts = 0 := countP_kind_of_words rfl h
  have hclose : ∀ front, front <+: ts → closings front = 0 := fun front hf =>
    countP_kind_of_words rfl fun t ht => h t (hf.subset ht)
  refine ⟨fun front hf => ?_, by rw [hopen, hclose ts (List.prefix_refl ts)]⟩
  rw [hclose front hf]
  exact Nat.zero_le _

theorem Balanced.append (h : Balanced ts) (h' : Balanced us) : Balanced (ts ++ us) := by
  refine ⟨fun front hf => ?_, by rw [openings_append, closings_append, h.closed, h'.closed]⟩
  rcases prefix_append_cases hf with hfront | ⟨back, rfl, hback⟩
  · exact h.opensFirst front hfront
  · have hle := h'.opensFirst back hback
    rw [openings_append, closings_append, h.closed]
    omega

theorem openings_block {opening : Token} (ho : opening.kind = .indent) (ts : List Token) :
    openings (opening :: ts) = openings ts + 1 := by
  unfold openings
  rw [List.countP_cons_of_pos (by simp [ho])]

theorem closings_block {opening : Token} (ho : opening.kind = .indent) (ts : List Token) :
    closings (opening :: ts) = closings ts := by
  unfold closings
  rw [List.countP_cons_of_neg (by simp [ho])]

/-- **Inside a block more blocks are open than closed.** -/
theorem Balanced.inside (h : Balanced ts) {opening : Token} (ho : opening.kind = .indent) {front : List Token}
    (hf : front <+: ts) : closings (opening :: front) < openings (opening :: front) := by
  rw [openings_block ho, closings_block ho]
  exact Nat.lt_succ_of_le (h.opensFirst front hf)

theorem Balanced.block (h : Balanced ts) {opening closing : Token} (ho : opening.kind = .indent)
    (hc : closing.kind = .dedent) : Balanced (opening :: (ts ++ [closing])) := by
  have hclosed : openings (opening :: (ts ++ [closing])) = closings (opening :: (ts ++ [closing])) := by
    have hopen : openings [closing] = 0 := by simp [openings, hc]
    have hclose : closings [closing] = 1 := by simp [closings, hc]
    rw [openings_block ho, closings_block ho, openings_append, closings_append, h.closed, hopen, hclose]
  refine ⟨fun front hf => ?_, hclosed⟩
  rcases List.prefix_cons_iff.1 hf with rfl | ⟨back, rfl, hback⟩
  · exact Nat.le_refl 0
  · rcases List.prefix_concat_iff.1 hback with rfl | hback
    · exact Nat.le_of_eq hclosed.symm
    · exact Nat.le_of_lt (h.inside ho hback)

/-- The kinds that the grammar has a place for. -/
def TokenKind.isGrammatical : TokenKind → Bool
  | .comment | .newline | .unknown => false
  | _ => true

theorem not_ignored_of_grammatical {k : TokenKind} (h : k.isGrammatical = true) : k.isIgnored = false := by
  cases k <;> first | rfl | cases h

namespace Grammar

/-- **The tokens of a heading stand on a line.** -/
theorem HeadingTree.Valid.words {h : HeadingTree} (hv : h.Valid) :
    ∀ t ∈ h.tokens, t.kind.isLayout = false ∧ t.kind.isGrammatical = true := by
  intro t ht
  rcases List.mem_cons.1 ht with rfl | ht
  · rw [hv.name]
    exact ⟨rfl, rfl⟩
  · rcases hv.marker t ht with hk | hk | hk <;> rw [hk] <;> exact ⟨rfl, rfl⟩

theorem TransitionTree.Valid.words {l : TransitionTree} (hv : l.Valid) :
    ∀ t ∈ l.tokens, t.kind.isLayout = false ∧ t.kind.isGrammatical = true := by
  intro t ht
  unfold tokens tail at ht
  simp only [List.mem_append, List.mem_cons, Option.mem_toList] at ht
  rcases ht with ht | rfl | rfl | ht | ht
  · rw [hv.event t ht]; exact ⟨rfl, rfl⟩
  · rw [hv.arrow]; exact ⟨rfl, rfl⟩
  · rw [hv.target]; exact ⟨rfl, rfl⟩
  · rw [hv.guard t ht]; exact ⟨rfl, rfl⟩
  · rw [hv.actions t ht]; exact ⟨rfl, rfl⟩

theorem HeadingTree.Valid.balanced {h : HeadingTree} (hv : h.Valid) : Balanced h.tokens :=
  balanced_of_words fun t ht => (hv.words t ht).1

mutual

/-- **A state closes what it opens**, and so do the statements of a block. -/
theorem StateTree.balanced : ∀ {s : StateTree}, s.Valid → Balanced s.tokens
  | .bare _, hv => HeadingTree.Valid.balanced hv
  | .block _ _ _ _, ⟨hd, ho, hb, hc⟩ => hd.balanced.append ((BodyTree.balanced hb).block ho hc)

theorem BodyTree.balanced : ∀ {b : BodyTree}, b.Valid → Balanced b.tokens
  | .nil, _ => balanced_of_words (by simp [BodyTree.tokens])
  | .transition _ _, ⟨hl, hr⟩ => (balanced_of_words fun t ht => (hl.words t ht).1).append (BodyTree.balanced hr)
  | .state _ _, ⟨hs, hr⟩ => (StateTree.balanced hs).append (BodyTree.balanced hr)

end

mutual

/-- Every token of a derivation is of a kind that the grammar has a place for. -/
theorem StateTree.grammatical : ∀ {s : StateTree}, s.Valid → ∀ t ∈ s.tokens, t.kind.isGrammatical = true
  | .bare _, hv, t, ht => (HeadingTree.Valid.words hv t ht).2
  | .block _ opening body closing, ⟨hd, ho, hb, hc⟩, t, ht => by
    simp only [StateTree.tokens, List.mem_append, List.mem_cons, List.mem_nil_iff, or_false] at ht
    rcases ht with ht | rfl | ht | rfl
    · exact (hd.words t ht).2
    · rw [ho]
      rfl
    · exact BodyTree.grammatical hb t ht
    · rw [hc]
      rfl

theorem BodyTree.grammatical : ∀ {b : BodyTree}, b.Valid → ∀ t ∈ b.tokens, t.kind.isGrammatical = true
  | .nil, _, _, ht => nomatch ht
  | .transition _ _, ⟨hl, hr⟩, t, ht => (List.mem_append.1 ht).elim (fun h => (hl.words t h).2)
      (BodyTree.grammatical hr t)
  | .state _ _, ⟨hs, hr⟩, t, ht => (List.mem_append.1 ht).elim (StateTree.grammatical hs t)
      (BodyTree.grammatical hr t)

end

theorem balanced_states : ∀ {ss : List StateTree}, (∀ s ∈ ss, s.Valid) → Balanced (ss.flatMap StateTree.tokens)
  | [], _ => balanced_of_words (by simp)
  | s :: ss, h => by
    obtain ⟨hs, hss⟩ := List.forall_mem_cons.1 h
    exact (StateTree.balanced hs).append (balanced_states hss)

theorem ChartTree.Valid.grammatical {d : ChartTree} (hd : d.Valid) : ∀ t ∈ d.tokens, t.kind.isGrammatical = true := by
  have hstates : ∀ t ∈ d.states.flatMap StateTree.tokens, t.kind.isGrammatical = true := by
    intro t ht
    obtain ⟨s, hs, ht⟩ := List.mem_flatMap.1 ht
    exact StateTree.grammatical (hd.states s hs) t ht
  intro t ht
  unfold ChartTree.tokens at ht
  split at ht
  · exact hstates t ht
  · rename_i opening closing hframe
    obtain ⟨ho, hc⟩ := hd.frame (opening, closing) hframe
    simp only [List.mem_cons, List.mem_append, List.mem_nil_iff, or_false] at ht
    rcases ht with rfl | ht | rfl
    · rw [ho]
      rfl
    · exact hstates t ht
    · rw [hc]
      rfl

/-- No token of a derivation is one that the grammar does not see. -/
theorem ChartTree.Valid.not_ignored {d : ChartTree} (hd : d.Valid) : ∀ t ∈ d.tokens, t.kind.isIgnored = false :=
  fun t ht => not_ignored_of_grammatical (hd.grammatical t ht)

/-! ## Breaking off -/

theorem prefix_option {o : Option Token} {front : List Token} (h : front <+: o.toList) :
    ∃ o' : Option Token, o'.toList = front ∧ ∀ t ∈ o', t ∈ o := by
  cases o with
  | none => exact ⟨none, (List.prefix_nil.1 h).symm, by simp⟩
  | some t =>
    rcases List.prefix_cons_iff.1 h with rfl | ⟨back, rfl, hb⟩
    · exact ⟨none, rfl, by simp⟩
    · exact ⟨some t, by rw [List.prefix_nil.1 hb]; rfl, fun _ hu => hu⟩

/-- Behind its name a heading may break off anywhere. -/
theorem HeadingTree.Valid.of_prefix {h : HeadingTree} (hv : h.Valid) (hf : us <+: h.tokens) (hne : us ≠ []) :
    ∃ h' : HeadingTree, h'.Valid ∧ h'.tokens = us := by
  obtain ⟨name, parallel, final, initial⟩ := h
  rcases List.prefix_cons_iff.1 hf with rfl | ⟨marks, rfl, hmarks⟩
  · exact absurd rfl hne
  · rcases prefix_append_cases hmarks with hparallel | ⟨back, rfl, hback⟩
    · obtain ⟨p, rfl, hp⟩ := prefix_option hparallel
      exact ⟨⟨name, p, none, none⟩, ⟨hv.name, fun t ht => hv.parallel t (hp t ht), by simp, by simp⟩,
        by simp [tokens, markers]⟩
    · rcases prefix_append_cases hback with hfinal | ⟨last, rfl, hinitial⟩
      · obtain ⟨f, rfl, hp⟩ := prefix_option hfinal
        exact ⟨⟨name, parallel, f, none⟩, ⟨hv.name, hv.parallel, fun t ht => hv.final t (hp t ht), by simp⟩,
          by simp [tokens, markers]⟩
      · obtain ⟨m, rfl, hp⟩ := prefix_option hinitial
        exact ⟨⟨name, parallel, final, m⟩, ⟨hv.name, hv.parallel, hv.final, fun t ht => hv.initial t (hp t ht)⟩, rfl⟩

/-- A state that breaks off outside of its block is a state. -/
theorem StateTree.Valid.of_prefix {s : StateTree} (hv : s.Valid) (hf : us <+: s.tokens) (hne : us ≠ [])
    (hclosed : openings us ≤ closings us) : ∃ s' : StateTree, s'.Valid ∧ s'.tokens = us := by
  have bare : ∀ {h : HeadingTree}, h.Valid → us <+: h.tokens → ∃ s' : StateTree, s'.Valid ∧ s'.tokens = us := by
    intro h hh hf
    obtain ⟨h', hh', rfl⟩ := hh.of_prefix hf hne
    exact ⟨.bare h', hh', rfl⟩
  cases s with
  | bare h => exact bare hv hf
  | block h opening body closing =>
    obtain ⟨hh, ho, hb, hc⟩ := hv
    rcases prefix_append_cases hf with hheading | ⟨back, rfl, hback⟩
    · exact bare hh hheading
    · rcases List.prefix_cons_iff.1 hback with rfl | ⟨inner, rfl, hinner⟩
      · exact bare hh ⟨[], by simp⟩
      · rcases List.prefix_concat_iff.1 hinner with rfl | hinner
        · exact ⟨.block h opening body closing, ⟨hh, ho, hb, hc⟩, rfl⟩
        -- within the block its opening is not closed yet
        · have hinside := (BodyTree.balanced hb).inside ho hinner
          rw [openings_append, closings_append, hh.balanced.closed] at hclosed
          omega

/-- **States that break off outside of a block are states.** -/
theorem states_of_prefix : ∀ {ss : List StateTree} {us : List Token}, (∀ s ∈ ss, s.Valid) →
    us <+: ss.flatMap StateTree.tokens → openings us ≤ closings us →
      ∃ ss' : List StateTree, (∀ s ∈ ss', s.Valid) ∧ ss'.flatMap StateTree.tokens = us
  | [], us, _, hf, _ => ⟨[], by simp, (List.prefix_nil.1 hf).symm⟩
  | s :: ss, us, h, hf, hclosed => by
    obtain ⟨hs, hss⟩ := List.forall_mem_cons.1 h
    rcases prefix_append_cases hf with hfront | ⟨back, rfl, hback⟩
    · by_cases hne : us = []
      · exact ⟨[], by simp, hne.symm⟩
      · obtain ⟨s', hs', rfl⟩ := hs.of_prefix hfront hne hclosed
        exact ⟨[s'], by simpa using hs', by simp⟩
    · rw [openings_append, closings_append, (StateTree.balanced hs).closed] at hclosed
      have hlater : openings back ≤ closings back := by omega
      obtain ⟨ss', hss', rfl⟩ := states_of_prefix hss hback hlater
      exact ⟨s :: ss', List.forall_mem_cons.2 ⟨hs, hss'⟩, rfl⟩

/-- **A chart that breaks off with no block open is a chart.** -/
theorem ChartTree.Valid.of_prefix {d : ChartTree} (hd : d.Valid) (hf : us <+: d.tokens) (hne : us ≠ [])
    (hclosed : openings us ≤ closings us) : ∃ d' : ChartTree, d'.Valid ∧ d'.tokens = us := by
  unfold ChartTree.tokens at hf
  split at hf
  · obtain ⟨ss, hss, rfl⟩ := states_of_prefix hd.states hf hclosed
    cases ss with
    | nil => exact absurd rfl hne
    | cons s ss => exact ⟨⟨none, s, ss⟩, ⟨hss, by simp⟩, rfl⟩
  · rename_i opening closing hframe
    obtain ⟨ho, hc⟩ := hd.frame (opening, closing) hframe
    rcases List.prefix_cons_iff.1 hf with rfl | ⟨back, rfl, hback⟩
    · exact absurd rfl hne
    · rcases List.prefix_concat_iff.1 hback with rfl | hback
      · exact ⟨d, hd, by unfold ChartTree.tokens; rw [hframe]⟩
      -- the frame is closed by the last token only
      · have hinside : closings (opening :: back) < openings (opening :: back) :=
          (balanced_states hd.states).inside ho hback
        omega

end Grammar
end Statechart
