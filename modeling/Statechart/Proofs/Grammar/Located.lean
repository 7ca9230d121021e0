import Mathlib
import Statechart.Proofs.Grammar.Viable
/-!
# Located — where a reported error is

The tokens of a text close every block.  Were a failure behind the last of them, all of them would begin a chart, and
then they would be one and there would be no failure.  So the error of a text with a token that the grammar sees is on
one of its tokens, and has its place.
-/
namespace Statechart

open Grammar
open Diagnostic (Mismatch Report)

theorem countP_kind_seen {kind : TokenKind} (hk : kind.isIgnored = false) (ts : List Token) :
    (seen ts).countP (fun t => t.kind == kind) = ts.countP (fun t => t.kind == kind) := by
  unfold seen
  rw [List.countP_filter]
  refine List.countP_congr fun t _ => ?_
  by_cases heq : t.kind = kind
  · simp [heq, hk]
  · simp [heq]

namespace Grammar

/-- **Where a chart fails no token is missing**: what begins a chart is shorter than the tokens. -/
theorem lt_size_of_viable {tokens : List Token} (hw : ∀ t ∈ tokens, t.Worded) (hne : seen tokens ≠ [])
    (hclosed : openings tokens = closings tokens) {f : Failure} {t : Trace}
    (h : chart.run (visible tokens) 0 = (.failed f, t)) {k : Nat}
    (hk : Viable ((visible tokens).toList.take k)) : k < (visible tokens).size := by
  refine Nat.lt_of_not_le fun hge => ?_
  rw [List.take_of_length_le (by rwa [Array.length_toList]), toList_visible] at hk
  obtain ⟨rest, d, hd, -, htokens⟩ := hk
  have hopenings : openings (seen tokens) = openings tokens := countP_kind_seen rfl tokens
  have hclosings : closings (seen tokens) = closings tokens := countP_kind_seen rfl tokens
  have hseen : openings (seen tokens) = closings (seen tokens) := by
    rw [hopenings, hclosings, hclosed]
  -- all tokens begin a chart and close their blocks: they are a chart, and it would have been read
  obtain ⟨d', hd', htokens'⟩ := hd.of_prefix ⟨rest, htokens.symm⟩ hne (Nat.le_of_eq hseen)
  obtain ⟨e, hv, he, hsame⟩ := ChartTree.exists_eager hd'
  have hg := chart_gives_of_derivation hw hv he (hsame.trans htokens')
  rw [Matcher.Gives, h] at hg
  cases hg

/-- **A report is on a token** as soon as there is one. -/
theorem report_of_failed {tokens : List Token} (hw : ∀ t ∈ tokens, t.Worded)
    (hclosed : openings tokens = closings tokens) {f : Failure} {t : Trace}
    (h : chart.run (visible tokens) 0 = (.failed f, t)) :
    (seen tokens = [] ∧ ∃ reason, (Reading.reported f t).report = ⟨reason, none, 0, 0⟩) ∨
      ∃ x ∈ seen tokens, ∃ reason, (Reading.reported f t).report = ⟨reason, some x, x.line, x.col⟩ := by
  obtain ⟨reason, k, hk, hreport⟩ := (blamed_reached hw h).report
  rw [Reading.reported_eq, hreport]
  by_cases hne : seen tokens = []
  · have hnone : (visible tokens)[k]? = none := by
      rw [← Array.getElem?_toList, toList_visible, hne]
      rfl
    rw [hnone]
    exact .inl ⟨hne, reason, rfl⟩
  · have hlt := lt_size_of_viable hw hne hclosed h hk
    have hx : (visible tokens)[k]? = some (visible tokens)[k] := Array.getElem?_eq_getElem hlt
    rw [hx]
    exact .inr ⟨_, Array.mem_toList_iff.2 (Array.getElem_mem hlt), reason, rfl⟩

end Grammar

namespace Diagnostic

theorem Report.place_prefix_shown {r : Report} (h : r.line ≠ 0) :
    Text.ofInt r.line ++ ':' :: Text.ofInt r.col ++ ": ".toList <+: r.shown := by
  unfold shown
  rw [if_neg h]
  exact List.prefix_append _ _

theorem Mismatch.report_prefix_shown (e : Mismatch) : e.report.shown <+: e.shown := by
  unfold shown
  split
  · exact List.prefix_refl _
  · rw [List.append_assoc]
    exact List.prefix_append _ _

end Diagnostic

/-- **The error of a text with a token that the grammar sees is on one of its tokens**, and shows the place of that token
first; it has no place only where there is no such token. -/
theorem ofText_located {rootId t : Text} {ts : List Token} {e : Mismatch} {records : List Record}
    (hts : tokenize t = .ok ts) (h : Reading.ofText rootId t = .ok (.mismatch e, records)) :
    ((∃ x ∈ ts, x.kind.isIgnored = false) → ∃ x ∈ ts, e.report.found = some x ∧
      (e.report.line = x.line ∧ e.report.col = x.col) ∧ (1 ≤ x.line ∧ 1 ≤ x.col) ∧
        Text.ofInt x.line ++ ':' :: Text.ofInt x.col ++ ": ".toList <+: e.shown) ∧
    (e.report.found = none ∨ e.report.line = 0 → ∀ x ∈ ts, x.kind.isIgnored = true) ∧
    ((∀ x ∈ ts, x.kind.isIgnored = true) → e.report.found = none ∧ e.report.line = 0) := by
  obtain ⟨ts', hts', f, trace, hrun, rfl⟩ := Reading.failure_of_mismatch h
  obtain rfl : ts = ts' := Except.ok.inj (hts.symm.trans hts')
  rcases report_of_failed (worded_of_tokenize hts) (Lexer.closed_of_tokenize hts) hrun with
    ⟨hnil, reason, hreport⟩ | ⟨x, hx, reason, hreport⟩
  · have hall : ∀ x ∈ ts, x.kind.isIgnored = true := by simpa [seen] using hnil
    refine ⟨fun ⟨x, hx, hkind⟩ => ?_, fun _ => hall, fun _ => ?_⟩
    · rw [hall x hx] at hkind
      cases hkind
    · rw [hreport]
      exact ⟨rfl, rfl⟩
  · obtain ⟨hx, hkind⟩ := List.mem_filter.1 hx
    have hplace := Lexer.one_le_of_tokenize hts x hx
    have hline : (Reading.reported f trace).report.line ≠ 0 := by
      rw [hreport]
      show x.line ≠ 0
      omega
    have hshown := (Report.place_prefix_shown hline).trans (Mismatch.report_prefix_shown _)
    refine ⟨fun _ => ⟨x, hx, ?_⟩, fun hnone => ?_, fun hall => ?_⟩
    · rw [hreport] at hshown ⊢
      exact ⟨rfl, ⟨rfl, rfl⟩, hplace, hshown⟩
    · refine absurd hnone (not_or.2 ⟨?_, hline⟩)
      rw [hreport]
      exact Option.some_ne_none x
    · rw [hall x hx] at hkind
      cases hkind

/-- A transition without a target, at the end of a text. -/
def noTarget : Text := "a\n  b ->".toList

def noTargetTokens : List Token :=
  [⟨.identifier, 1, 1, some ['a']⟩, ⟨.newline, 1, 2, none⟩, ⟨.indent, 2, 1, none⟩, ⟨.identifier, 2, 3, some ['b']⟩,
    ⟨.arrow, 2, 5, none⟩, ⟨.dedent, 2, 7, none⟩]

theorem ofText_located_noTarget :
    tokenize noTarget = .ok noTargetTokens ∧ (∃ x ∈ noTargetTokens, x.kind.isIgnored = false) ∧
      ∃ e records, Reading.ofText [] noTarget = .ok (.mismatch e, records) ∧
        e.report.found = some ⟨.dedent, 2, 7, none⟩ ∧ "2:7: ".toList <+: e.shown := by
  have htokens : tokenize noTarget = .ok noTargetTokens := by cbv
  have hread : ∃ e records, Reading.ofText [] noTarget = .ok (.mismatch e, records) ∧
      e.report.found = some ⟨.dedent, 2, 7, none⟩ := by
    unfold Reading.ofText
    rw [htokens]
    exact ⟨_, _, rfl, by cbv⟩
  have hsome : ∃ x ∈ noTargetTokens, x.kind.isIgnored = false := by decide
  obtain ⟨e, records, hread, hfound⟩ := hread
  obtain ⟨x, hx, hfound', -, -, hshown⟩ := (ofText_located htokens hread).1 hsome
  rw [hfound] at hfound'
  obtain rfl := Option.some.inj hfound'
  exact ⟨htokens, hsome, e, records, hread, hfound, hshown⟩

end Statechart
