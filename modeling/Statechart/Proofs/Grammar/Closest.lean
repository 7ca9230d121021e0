import Statechart.Proofs.Grammar.Contract
import Statechart.Proofs.Rule.Faults
/-!
# Closest — the mismatch that is shown beside a failed choice

A failed choice keeps the mismatches of its rules with the position each reached, and is shown with the one that got
furthest, followed through every choice inside (`Mismatch.deepest`).  Failures are made in two ways: a matcher reports
the token at its position, or a choice fails with the failures of its rules.  What both ways keep holds of every failure
of every rule (`Rule.Built.faults`), and both keep the closest mismatch on the token where the failure lies.
-/
namespace Statechart

open Grammar
open Diagnostic (Mismatch Reason Report)

namespace Diagnostic
namespace Mismatch

theorem deepestOf_eq_none {ts : List (Mismatch × Int)} : deepestOf ts = none ↔ ts = [] := by
  cases ts with
  | nil => simp [deepestOf]
  | cons c ts =>
    rw [deepestOf]
    cases deepestOf ts with
    | none => simp
    | some other => by_cases h : c.2 < other.2 <;> simp [h]

/-- **No alternative got further than the one that is followed.** -/
theorem deepestOf_eq_some {ts : List (Mismatch × Int)} {best : Mismatch × Int} (h : deepestOf ts = some best) :
    (∃ c ∈ ts, best = (c.1.deepest, c.2)) ∧ ∀ c ∈ ts, c.2 ≤ best.2 := by
  induction ts generalizing best with
  | nil => simp [deepestOf] at h
  | cons c ts ih =>
    rw [deepestOf] at h
    cases hrest : deepestOf ts with
    | none =>
      obtain rfl := deepestOf_eq_none.1 hrest
      simp only [hrest, Option.some.injEq] at h
      subst h
      simp
    | some other =>
      obtain ⟨⟨d, hd, hother⟩, hall⟩ := ih hrest
      simp only [hrest] at h
      by_cases hlt : c.2 < other.2
      · rw [if_pos hlt, Option.some.injEq] at h
        subst h
        exact ⟨⟨d, List.mem_cons_of_mem c hd, hother⟩, List.forall_mem_cons.2 ⟨Int.le_of_lt hlt, hall⟩⟩
      · rw [if_neg hlt, Option.some.injEq] at h
        subst h
        refine ⟨⟨c, List.mem_cons_self, rfl⟩, List.forall_mem_cons.2 ⟨Int.le_refl _, fun d hd => ?_⟩⟩
        exact Int.le_trans (hall d hd) (Int.not_lt.1 hlt)

end Mismatch
end Diagnostic

/-! ## The failures of a rule -/

/-- What both ways of failing keep: a report on the token at the position, and a choice of rules that fail. -/
structure Failure.Kept (tokens : Array Token) (F : Failure → Prop) : Prop where
  reported : ∀ reason i, F ⟨.plain (Report.on reason tokens[i]?), i⟩
  exhausted : ∀ names failures i, (∀ f ∈ failures, F f) → F (Rule.exhausted names failures tokens i)

namespace Failure.Kept

open Matcher (Faults)

variable {α : Type} {tokens : Array Token} {F : Failure → Prop} (hF : Kept tokens F) {i : Nat}
include hF

theorem expect {kind : TokenKind} : (Rule.expect kind).run.Faults tokens i F :=
  Matcher.faults_expect (hF.reported _ i)

theorem word {kind : TokenKind} : ((Rule.expect kind).map Token.text).run.Faults tokens i F := Rule.faults_map hF.expect

theorem onLine {r : Rule α} {line : Int} (h : r.run.Faults tokens i F) : (r.onLine line).run.Faults tokens i F :=
  Rule.faults_onLine h (hF.reported _ i)

omit hF in
theorem many {p : Matcher α} (h : ∀ j, p.Faults tokens j F) : p.many.Faults tokens i F :=
  Matcher.faults_many (I := fun _ => True) (fun j _ => h j) (fun _ _ _ _ _ => trivial) trivial

theorem transition : transition.run.Faults tokens i F := by
  rw [transition_run]
  refine Matcher.faults_look.bind fun first _ _ => ?_
  refine hF.word.optional.bind fun _ _ _ => ?_
  refine (hF.onLine hF.expect).bind fun _ _ _ => ?_
  refine (hF.onLine hF.word).bind fun _ _ _ => ?_
  refine Matcher.faults_look.bind fun _ i _ => ?_
  split
  · exact Matcher.faults_fail (hF.reported _ i)
  · refine (hF.onLine hF.word).optional.bind fun _ _ _ => ?_
    exact (many fun _ => hF.onLine hF.word).bind fun _ _ _ => faults_entryOf

theorem heading : heading.run.Faults tokens i F := by
  rw [heading_run]
  refine Matcher.faults_look.bind fun o i _ => ?_
  cases o with
  | none => exact Matcher.faults_fail (hF.reported _ i)
  | some token =>
    refine hF.word.bind fun _ _ _ => ?_
    refine hF.expect.optional.bind fun _ _ _ => ?_
    refine hF.expect.optional.bind fun _ _ _ => ?_
    refine hF.expect.optional.bind fun _ _ _ => ?_
    exact faults_present.bind fun _ _ _ => Matcher.faults_pure

theorem stateWithBody {st : Rule Item} (hst : ∀ j, st.run.Faults tokens j F) :
    (stateWithBody st).run.Faults tokens i F := by
  rw [stateWithBody_run]
  refine hF.heading.bind fun _ _ _ => ?_
  refine hF.expect.bind fun _ _ _ => ?_
  refine (many hst).bind fun _ _ _ => ?_
  exact hF.expect.bind fun _ _ _ => Matcher.faults_pure

theorem stateNameOnly : stateNameOnly.run.Faults tokens i F := by
  rw [stateNameOnly_run]
  exact hF.heading.bind fun _ _ _ => Matcher.faults_pure

theorem stateOf {st : Rule Item} (hst : ∀ j, st.run.Faults tokens j F) : (stateOf st).run.Faults tokens i F := by
  rw [stateOf_run]
  have hforms := Rule.faults_oneOf_pair (hF.stateWithBody hst) hF.stateNameOnly fun names fs => hF.exhausted names fs i
  exact hforms.bind fun _ _ _ => Matcher.faults_remark.bind fun _ _ _ => Matcher.faults_pure

theorem statementUpTo : ∀ (n : Nat) {i : Nat}, (statementUpTo n).run.Faults tokens i F
  | 0, _ => Matcher.faults_unfit
  | n + 1, i => by
    rw [statementUpTo_succ, statementOf_run]
    have hstate := hF.stateOf (i := i) fun _ => statementUpTo n
    exact Rule.faults_oneOf_pair (Rule.faults_map hF.transition) (Rule.faults_map hstate)
      fun names fs => hF.exhausted names fs i

theorem statement : statement.run.Faults tokens i F := by
  have h : (Grammar.statementUpTo (tokens.size + 1)).run.Faults tokens i F := hF.statementUpTo _
  rwa [Faults, ← statement_run] at h

theorem chart : chart.run.Faults tokens i F := by
  rw [chart_run]
  refine hF.expect.optional.bind fun lead _ _ => ?_
  refine (hF.stateOf fun _ => hF.statement).bind fun _ _ _ => ?_
  refine (many fun _ => hF.stateOf fun _ => hF.statement).bind fun _ i _ => ?_
  have hclose : (closeLead lead).Faults tokens i F := by
    cases lead with
    | none => exact Matcher.faults_pure
    | some opening => exact hF.expect.bind fun _ _ _ => Matcher.faults_pure
  refine hclose.bind fun _ i _ => ?_
  exact (Matcher.faults_atEnd (hF.reported _ i)).bind fun _ _ _ => Matcher.faults_pure

end Failure.Kept

/-- **What both ways of failing keep holds of every failure of every rule**: by induction on how the rule is built. -/
theorem Rule.Built.faults {tokens : Array Token} {F : Failure → Prop} (hF : Failure.Kept tokens F) {α : Type}
    {r : Rule α} (h : r.Built) : ∀ {i : Nat}, r.run.Faults tokens i F := by
  induction h with
  | expect kind => exact hF.expect
  | endOfInput => exact Matcher.faults_atEnd (hF.reported _ _)
  | map f _ ih => exact faults_map ih
  | oneOf _ ih => exact faults_oneOf (fun r hr => ih r hr) fun names fs => hF.exhausted names fs _
  | optional _ ih => exact ih.optional
  | many _ ih => exact Failure.Kept.many fun _ => ih
  | named _ _ ih => exact ih
  | onLine _ _ ih => exact hF.onLine ih
  | transition => exact hF.transition
  | heading => exact hF.heading
  | stateWithBody => exact hF.stateWithBody fun _ => hF.statement
  | stateNameOnly => exact hF.stateNameOnly
  | state => exact hF.stateOf fun _ => hF.statement
  | statement => exact hF.statement
  | chart => exact hF.chart

/-! ## The closest mismatch -/

/-- The closest mismatch of a failure is no choice of others, and is on the token where the failure lies. -/
structure Failure.OnToken (tokens : Array Token) (f : Failure) : Prop where
  leaf : f.error.deepest.tried = []
  report : ∃ reason, f.error.deepest.report = Report.on reason tokens[f.pos]?

/-- **A choice lies where its closest mismatch lies.** -/
theorem Failure.onToken_exhausted {tokens : Array Token} {names : List Text} {failures : List Failure} {i : Nat}
    (h : ∀ f ∈ failures, f.OnToken tokens) : (Rule.exhausted names failures tokens i).OnToken tokens := by
  rcases Rule.pos_exhausted names failures tokens i with ⟨rfl, hpos⟩ | ⟨g, hg, hpos, hfurthest⟩
  · refine ⟨rfl, .noneOf names, ?_⟩
    rw [hpos]
    rfl
  · cases hbest : Mismatch.deepestOf (failures.map (fun f => (f.error, (f.pos : Int)))) with
    | none =>
      rw [Mismatch.deepestOf_eq_none, List.map_eq_nil_iff] at hbest
      rw [hbest] at hg
      cases hg
    | some best =>
      obtain ⟨⟨c, hc, hsame⟩, hall⟩ := Mismatch.deepestOf_eq_some hbest
      obtain ⟨f, hf, rfl⟩ := List.mem_map.1 hc
      subst hsame
      -- the failure that is followed and the one that gives the position got equally far
      have hle : g.pos ≤ f.pos := Int.ofNat_le.1 (hall _ (List.mem_map_of_mem hg))
      have hsame : f.pos = g.pos := Nat.le_antisymm (hfurthest f hf) hle
      have hdeepest : (Rule.exhausted names failures tokens i).error.deepest = f.error.deepest := by
        simp only [Rule.exhausted, Mismatch.deepest, hbest]
      obtain ⟨hleaf, hreport⟩ := h f hf
      refine ⟨?_, ?_⟩
      · rwa [hdeepest]
      · rwa [hdeepest, hpos, ← hsame]

theorem Failure.kept_onToken (tokens : Array Token) : Kept tokens (OnToken tokens) :=
  ⟨fun reason _ => ⟨rfl, reason, rfl⟩, fun _ _ _ => onToken_exhausted⟩

/-- **The closest mismatch is the one at the position of the failure**: no choice of others, on the token there, with
its place; at the end of the tokens without a token and without a place. -/
theorem closest_of_failed {tokens : Array Token} (hl : AllLabelled tokens) {i : Nat} (hi : i ≤ tokens.size) {α : Type}
    {r : Rule α} (hr : r.Built) {f : Failure} (hf : (r.run tokens i).1 = .failed f) :
    f.error.deepest.tried = [] ∧ f.error.deepest.report.found = tokens[f.pos]? ∧
      ((∃ t, tokens[f.pos]? = some t ∧ f.error.deepest.report.line = t.line ∧ f.error.deepest.report.col = t.col) ∨
        f.pos = tokens.size ∧ f.error.deepest.report.line = 0 ∧ f.error.deepest.report.col = 0) := by
  obtain ⟨hleaf, reason, hreport⟩ := (hr.faults (Failure.kept_onToken tokens)).returned f hf
  have hwithin := (hr.ends hl hi).within
  rw [hf] at hwithin
  rw [hreport]
  cases ht : tokens[f.pos]? with
  | none =>
    have hge := Array.getElem?_eq_none_iff.1 ht
    exact ⟨hleaf, rfl, .inr ⟨Nat.le_antisymm hwithin.2 hge, rfl, rfl⟩⟩
  | some t => exact ⟨hleaf, rfl, .inl ⟨t, rfl, rfl, rfl⟩⟩

/-- A transition `-> b` that needs a guard and has a marker instead. -/
def unguarded : Array Token :=
  #[⟨.arrow, 1, 1, none⟩, ⟨.identifier, 1, 4, some ['b']⟩, ⟨.final, 1, 5, none⟩]

/-- A choice between the end of a block and a statement, which is a choice itself. -/
def endOrStatement : Rule Unit := .oneOf [(Rule.expect .dedent).map fun _ => (), statement.map fun _ => ()]

/-- The choice inside got further than its neighbour, and its transition further than its state. -/
theorem closest_of_failed_unguarded : AllLabelled unguarded ∧ 0 ≤ unguarded.size ∧ endOrStatement.Built ∧
    ∃ f, (endOrStatement.run unguarded 0).1 = .failed f ∧ f.error.tried.length = 2 ∧ f.pos = 2 ∧
      f.error.deepest.report.found = some ⟨.final, 1, 5, none⟩ ∧ f.error.deepest.report.line = 1 ∧
        f.error.deepest.report.col = 5 := by
  have hl : AllLabelled unguarded := by
    show ∀ t ∈ unguarded, t.Labelled
    decide
  have hi : 0 ≤ unguarded.size := Nat.zero_le _
  have hr : endOrStatement.Built :=
    .oneOf (List.forall_mem_cons.2 ⟨.map _ (.expect _), List.forall_mem_singleton.2 (.map _ .statement)⟩)
  have hrun : ∃ f, (endOrStatement.run unguarded 0).1 = .failed f ∧ f.error.tried.length = 2 ∧ f.pos = 2 :=
    ⟨_, rfl, rfl, rfl⟩
  obtain ⟨f, hf, htried, hpos⟩ := hrun
  obtain ⟨-, hfound, ⟨t, ht, hline, hcol⟩ | ⟨hend, -⟩⟩ := closest_of_failed hl hi hr hf
  · rw [hpos] at hfound ht
    obtain rfl := Option.some.inj ht
    exact ⟨hl, hi, hr, f, hf, htried, hpos, hfound, hline, hcol⟩
  · rw [hpos] at hend
    cases hend

end Statechart
