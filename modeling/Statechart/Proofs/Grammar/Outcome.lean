import Statechart.Grammar.Reading
import Statechart.Proofs.Grammar.Recognition
import Statechart.Proofs.Token.Segment
/-!
# Outcome — where a reading comes from

A reading of a text is a tree because the tokens of the text have a derivation, and a mismatch because the rule for a
chart failed on them.
-/
namespace Statechart

open Grammar
open Diagnostic (Mismatch)

theorem toList_visible (ts : List Token) : (visible ts).toList = seen ts := rfl

theorem Trace.mem_of_furthest {t : Trace} {f : Failure} (h : t.furthest none = some f) : f ∈ t.failures := by
  have known : ∀ f ∈ t.furthest none, f ∈ t.failures := by
    refine List.foldlRecOn t.failures further (motive := fun best => ∀ f ∈ best, f ∈ t.failures) (by simp) ?_
    intro best hbest g hg f hf
    unfold further at hf
    split at hf
    · rwa [← Option.some.inj hf]
    · split at hf
      · rwa [← Option.some.inj hf]
      · exact hbest f hf
  exact known f h

namespace Reading

variable {rootId t : Text} {records : List Record}

/-- The failure to report: that of the rule, or one recorded further on. -/
def blamed (f : Failure) (t : Trace) : Failure :=
  match t.furthest none with
  | none => f
  | some best => if f.pos < best.pos then best else f

theorem reported_eq (f : Failure) (t : Trace) : reported f t = (blamed f t).error := by
  unfold reported blamed
  cases t.furthest none with
  | none => rfl
  | some best =>
    simp only
    split <;> rfl

/-- **What holds of all failures holds of the one to report.** -/
theorem blamed_of_leaves {α : Type} {f : Failure} {t : Trace} {F : Failure → Prop}
    (h : Leaves ((.failed f, t) : Outcome α × Trace) F) : F (blamed f t) := by
  unfold blamed
  split
  · exact h.returned f rfl
  · rename_i best hbest
    split
    · exact h.recorded best (Trace.mem_of_furthest hbest)
    · exact h.returned f rfl

theorem ofTokens_of_ofText {r : Reading} (h : ofText rootId t = .ok (r, records)) :
    ∃ ts rs, tokenize t = .ok ts ∧ ofTokens rootId ts = .ok (r, rs) := by
  unfold ofText at h
  split at h
  · cases h
  · rename_i ts hts
    split at h
    · cases h
    · rename_i r' rs hrs
      cases h
      exact ⟨ts, rs, hts, hrs⟩

theorem worded_of_seen {ts : List Token} (hts : tokenize t = .ok ts) : ∀ x ∈ seen ts, x.Worded :=
  fun x hx => worded_of_tokenize hts x (List.mem_filter.1 hx).1

/-- **A tree is assembled from a derivation** of the tokens of the text. -/
theorem derivation_of_tree {root : Node} (h : ofText rootId t = .ok (.tree root, records)) :
    ∃ ts, tokenize t = .ok ts ∧ ∃ d : ChartTree, (d.Valid ∧ d.Eager ∧ d.tokens = seen ts) ∧
      root = Assembly.root rootId d.nodes := by
  obtain ⟨ts, rs, hts, hr⟩ := ofTokens_of_ofText h
  refine ⟨ts, hts, ?_⟩
  unfold ofTokens at hr
  split at hr
  · cases hr
  · cases hr
  · rename_i nodes stop trace hrun
    have hgives : chart.run.Gives (visible ts) 0 nodes stop := congrArg Prod.fst hrun
    obtain ⟨d, hd, he, htokens, rfl⟩ := chart_sound (allWorded_visible (worded_of_tokenize hts)) hgives
    cases hr
    exact ⟨d, ⟨hd, he, htokens.trans (toList_visible ts)⟩, rfl⟩

/-- **A mismatch is reported from a failure** of the rule for a chart. -/
theorem failure_of_mismatch {e : Mismatch} (h : ofText rootId t = .ok (.mismatch e, records)) :
    ∃ ts, tokenize t = .ok ts ∧ ∃ f trace, chart.run (visible ts) 0 = (.failed f, trace) ∧ e = reported f trace := by
  obtain ⟨ts, rs, hts, hr⟩ := ofTokens_of_ofText h
  refine ⟨ts, hts, ?_⟩
  unfold ofTokens at hr
  split at hr
  · cases hr
  · rename_i f trace hrun
    cases hr
    exact ⟨f, trace, hrun, rfl⟩
  · cases hr

end Reading
end Statechart
