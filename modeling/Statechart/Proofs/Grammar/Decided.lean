import Statechart.Proofs.Grammar.Ending
import Statechart.Proofs.Grammar.Outcome
/-!
# Decided — every text is read

The rule for a chart matches or fails on tokens that have their texts, and the lexer leaves no others.  So a text is a
tree or a mismatch, unless its indentation cannot be read (`ofText_refused_iff`).
-/
namespace Statechart
namespace Reading

/-- **Tokens that have their texts are read.** -/
theorem exists_ofTokens (rootId : Text) {ts : List Token} (hw : ∀ t ∈ ts, t.Worded) :
    ∃ read, ofTokens rootId ts = .ok read := by
  have hchart := (Grammar.chart_ends (Grammar.allWorded_visible hw).allLabelled (Nat.zero_le _)).within
  unfold ofTokens
  split
  · rename_i hrun
    rw [hrun] at hchart
    exact hchart.elim
  · exact ⟨_, rfl⟩
  · exact ⟨_, rfl⟩

/-- **A text is refused only for its indentation.** -/
theorem ofText_refused_iff (rootId t : Text) (r : Refusal) :
    ofText rootId t = .error r ↔ ∃ e, r = .indentation e ∧ tokenize t = .error e := by
  unfold ofText
  cases hts : tokenize t with
  | error e => simp [eq_comm]
  | ok ts =>
    obtain ⟨read, hread⟩ := exists_ofTokens rootId (worded_of_tokenize hts)
    simp [hread]

end Reading
end Statechart
