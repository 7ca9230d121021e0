import Statechart.Proofs.Grammar.Ambiguity
import Statechart.Proofs.Grammar.Complete
/-!
# Recognition — the rules and the grammar agree

The rule for a chart matches exactly the tokens that have a derivation, and what it gives is assembled from the one
eager derivation.  So ordered choice loses nothing that the grammar allows, and where the grammar allows two readings
it always takes the same one.
-/
namespace Statechart
namespace Grammar

theorem allWorded_visible {tokens : List Token} (hw : ∀ t ∈ tokens, t.Worded) : AllWorded (visible tokens) := by
  intro t ht
  have ht : t ∈ tokens.filter (fun t => !t.kind.isIgnored) := by simpa [visible] using ht
  exact hw t (List.mem_filter.1 ht).1

/-- An eager derivation of the visible tokens is what is read. -/
theorem chart_gives_of_derivation {tokens : List Token} (hw : ∀ t ∈ tokens, t.Worded) {d : ChartTree} (hd : d.Valid)
    (he : d.Eager) (h : d.tokens = tokens.filter (fun t => !t.kind.isIgnored)) :
    chart.run.Gives (visible tokens) 0 d.nodes (visible tokens).size :=
  chart_complete (allWorded_visible hw) hd he h

/-- **The rule for a chart matches what the grammar derives, and gives what the eager derivation says.** -/
theorem chart_matches_iff_derivable (tokens : List Token) (hw : ∀ t ∈ tokens, t.Worded) :
    ((∃ nodes stop, (chart.run (visible tokens) 0).1 = .matched nodes stop) ↔
      ∃ d : ChartTree, d.Valid ∧ d.tokens = tokens.filter (fun t => !t.kind.isIgnored)) ∧
    ∀ nodes stop, (chart.run (visible tokens) 0).1 = .matched nodes stop →
      ∃ d : ChartTree, (d.Valid ∧ d.Eager ∧ d.tokens = tokens.filter (fun t => !t.kind.isIgnored)) ∧ nodes = d.nodes ∧
        ∀ e : ChartTree, e.Valid ∧ e.Eager ∧ e.tokens = tokens.filter (fun t => !t.kind.isIgnored) → e = d := by
  refine ⟨⟨?_, ?_⟩, ?_⟩
  · rintro ⟨nodes, stop, h⟩
    obtain ⟨d, hd, -, htokens, -⟩ := chart_sound (allWorded_visible hw) h
    exact ⟨d, hd, htokens⟩
  · rintro ⟨d, hd, htokens⟩
    obtain ⟨e, hv, he, hsame⟩ := ChartTree.exists_eager hd
    exact ⟨e.nodes, _, chart_gives_of_derivation hw hv he (hsame.trans htokens)⟩
  · intro nodes stop h
    obtain ⟨d, hd, he, htokens, rfl⟩ := chart_sound (allWorded_visible hw) h
    refine ⟨d, ⟨hd, he, htokens⟩, rfl, ?_⟩
    rintro e ⟨hv, he', htokens'⟩
    exact ChartTree.unique hv he' hd he (htokens'.trans htokens.symm)

/-- A state `a` with a line `b -> c; ok` and a line `c` below it. -/
def guardedLine : List Token :=
  [⟨.identifier, 1, 1, some ['a']⟩, ⟨.newline, 1, 2, none⟩, ⟨.indent, 2, 1, none⟩, ⟨.identifier, 2, 3, some ['b']⟩,
    ⟨.arrow, 2, 5, none⟩, ⟨.identifier, 2, 8, some ['c']⟩, ⟨.condition, 2, 9, some ['o', 'k']⟩, ⟨.newline, 2, 13, none⟩,
    ⟨.identifier, 3, 3, some ['c']⟩, ⟨.dedent, 3, 4, none⟩]

/-- Its derivation that reads `b` as an event. -/
def guardedLineTree : ChartTree where
  first := .block ⟨⟨.identifier, 1, 1, some ['a']⟩, none, none, none⟩ ⟨.indent, 2, 1, none⟩
    (.transition ⟨some ⟨.identifier, 2, 3, some ['b']⟩, ⟨.arrow, 2, 5, none⟩, ⟨.identifier, 2, 8, some ['c']⟩,
        some ⟨.condition, 2, 9, some ['o', 'k']⟩, []⟩
      (.state (.bare ⟨⟨.identifier, 3, 3, some ['c']⟩, none, none, none⟩) .nil)) ⟨.dedent, 3, 4, none⟩

theorem guardedLineTree_valid : guardedLineTree.Valid := by
  refine ⟨fun s hs => ?_, by simp [guardedLineTree]⟩
  obtain rfl := List.mem_singleton.1 hs
  exact ⟨⟨rfl, nofun, nofun, nofun⟩, rfl,
    ⟨⟨by decide, rfl, rfl, by decide, by decide, by decide, by decide⟩, ⟨⟨rfl, nofun, nofun, nofun⟩, trivial⟩⟩, rfl⟩

theorem guardedLineTree_eager : guardedLineTree.Eager := by
  intro s hs
  obtain rfl := List.mem_singleton.1 hs
  refine ⟨trivial, ?_, trivial⟩
  rintro ⟨a, ha, -⟩
  cases ha

/-- `b -> c; ok` could be a state and a transition; `b` is read as the event. -/
theorem chart_matches_guardedLine : (∀ t ∈ guardedLine, t.Worded) ∧
    ∃ n stop, (chart.run (visible guardedLine) 0).1 = .matched [n] stop ∧
      n.on = some [(['b'], .one { target := ['c'], cond := some ['o', 'k'] })] := by
  have hw : ∀ t ∈ guardedLine, t.Worded := by decide
  have htree : guardedLineTree.Valid ∧ guardedLineTree.Eager ∧
      guardedLineTree.tokens = guardedLine.filter (fun t => !t.kind.isIgnored) :=
    ⟨guardedLineTree_valid, guardedLineTree_eager, rfl⟩
  refine ⟨hw, ?_⟩
  obtain ⟨accepts, value⟩ := chart_matches_iff_derivable guardedLine hw
  obtain ⟨nodes, stop, h⟩ := accepts.2 ⟨guardedLineTree, htree.1, htree.2.2⟩
  obtain ⟨d, -, rfl, only⟩ := value nodes stop h
  obtain rfl := only guardedLineTree htree
  exact ⟨_, stop, h, rfl⟩

end Grammar
end Statechart
