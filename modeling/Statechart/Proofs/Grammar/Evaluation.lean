import Statechart.Grammar.Basic
import Statechart.Proofs.Rule.Matches
/-!
# Evaluation — how rules come to an end

A matcher counts: the turns of a repetition, and how deep statements nest.  And it leaves a trace, in which the failure
that got furthest is looked up afterwards.  An evaluation does neither.  A repetition goes on as long as it reads, a
statement is evaluated as what it is made of, and the furthest failure so far is carried along, to be replaced by one
that lies strictly further.  So an evaluation may go on for ever, and what is to be shown of a rule is that it ends
(`Ends`).  Each combinator has one law for that.
-/
namespace Statechart

open Diagnostic (Report)

/-- The outcome is a match up to one of the positions from `lo` to `hi`, or a failure at one. -/
def Outcome.Within {α : Type} (lo hi : Nat) : Outcome α → Prop
  | matched _ j => lo ≤ j ∧ j ≤ hi
  | failed f => lo ≤ f.pos ∧ f.pos ≤ hi
  | unfit => False

namespace Outcome

variable {α β : Type} {lo lo' hi : Nat}

theorem Within.weaken {o : Outcome α} (h : o.Within lo hi) (hlo : lo' ≤ lo) : o.Within lo' hi := by
  cases o with
  | matched a j => exact ⟨Nat.le_trans hlo h.1, h.2⟩
  | failed f => exact ⟨Nat.le_trans hlo h.1, h.2⟩
  | unfit => exact h

end Outcome

namespace Trace

/-- The failure known after others have been put on record: the one known before, unless one of them lies further, and
then the first of those that lie furthest. -/
inductive Recalls (known : Option Failure) (recorded : List Failure) : Option Failure → Prop where
  | kept (h : ∀ f ∈ recorded, ∃ k ∈ known, f.pos ≤ k.pos) : Recalls known recorded known
  | replaced (before after : List Failure) (f : Failure) (split : recorded = before ++ f :: after)
      (beyond : ∀ k ∈ known, k.pos < f.pos) (first : ∀ g ∈ before, g.pos < f.pos)
      (furthest : ∀ g ∈ after, g.pos ≤ f.pos) : Recalls known recorded (some f)

theorem further_of_lt {known : Option Failure} {f : Failure} (h : ∀ k ∈ known, k.pos < f.pos) :
    further known f = some f := by
  cases known with
  | none => rfl
  | some k => exact if_pos (h k rfl)

theorem further_of_le {k f : Failure} (h : f.pos ≤ k.pos) : further (some k) f = some k := if_neg (Nat.not_lt.2 h)

/-- **Keeping the further one of two failures finds the first of the furthest.** -/
theorem recalls_foldl_further : ∀ (recorded : List Failure) (known : Option Failure),
    Recalls known recorded (recorded.foldl further known)
  | [], known => .kept (by simp)
  | f :: recorded, known => by
    have ih := recalls_foldl_further recorded (further known f)
    rw [List.foldl_cons]
    generalize recorded.foldl further (further known f) = best at ih ⊢
    by_cases hf : ∀ k ∈ known, k.pos < f.pos
    · rw [further_of_lt hf] at ih
      cases ih with
      | kept h => exact .replaced [] recorded f rfl hf (by simp) (by simpa using h)
      | replaced before after g split beyond first furthest =>
        have hfg : f.pos < g.pos := beyond f rfl
        refine .replaced (f :: before) after g (by rw [split]; rfl) (fun k hk => ?_) ?_ furthest
        · exact Nat.lt_trans (hf k hk) hfg
        · exact List.forall_mem_cons.2 ⟨hfg, first⟩
    · cases known with
      | none => exact absurd nofun hf
      | some k =>
        have hk : f.pos ≤ k.pos := Nat.le_of_not_lt fun hlt => hf (by simpa using hlt)
        rw [further_of_le hk] at ih
        cases ih with
        | kept h => exact .kept (List.forall_mem_cons.2 ⟨⟨k, rfl, hk⟩, h⟩)
        | replaced before after g split beyond first furthest =>
          refine .replaced (f :: before) after g (by rw [split]; rfl) beyond ?_ furthest
          exact List.forall_mem_cons.2 ⟨Nat.lt_of_le_of_lt hk (beyond k rfl), first⟩

@[simp] theorem furthest_empty (known : Option Failure) : furthest known {} = known := rfl

@[simp] theorem failures_append (t t' : Trace) : (t ++ t').failures = t.failures ++ t'.failures := rfl

theorem furthest_append (known : Option Failure) (t t' : Trace) :
    furthest known (t ++ t') = furthest (furthest known t) t' := by
  unfold furthest
  rw [failures_append, List.foldl_append]

end Trace

namespace Grammar

open Matcher (look fail decline remark expect atEnd)

mutual

/-- With `known` as the furthest failure so far, evaluating a matcher at a position ends with an outcome, the failures
it has put on record, and the furthest failure then. -/
inductive Evaluates (tokens : Array Token) : {α : Type} → Matcher α → Nat → (known : Option Failure) → Outcome α →
    List Failure → Option Failure → Prop where
  | done {α : Type} {i known} (a : α) : Evaluates tokens (pure a) i known (.matched a i) [] known
  | look {i known} : Evaluates tokens look i known (.matched tokens[i]? i) [] known
  | remark {rs i known} : Evaluates tokens (remark rs) i known (.matched () i) [] known
  | fail {α : Type} {reason i known} : Evaluates tokens (fail reason : Matcher α) i known
      (.failed ⟨.plain (Report.on reason tokens[i]?), i⟩) [⟨.plain (Report.on reason tokens[i]?), i⟩]
      (Trace.further known ⟨.plain (Report.on reason tokens[i]?), i⟩)
  | decline {α : Type} {reason i known} : Evaluates tokens (decline reason : Matcher α) i known
      (.failed ⟨.plain (Report.on reason tokens[i]?), i⟩) [] known
  | token {kind i known t} (there : tokens[i]? = some t) (of : t.kind = kind) :
      Evaluates tokens (expect kind) i known (.matched t (i + 1)) [] known
  | noToken {kind i known o rs known'} (other : ∀ t, tokens[i]? = some t → t.kind ≠ kind)
      (fails : Evaluates tokens (fail (.wanted kind) : Matcher Token) i known o rs known') :
      Evaluates tokens (expect kind) i known o rs known'
  | atEnd {i known} (done : tokens[i]? = none) : Evaluates tokens atEnd i known (.matched () i) [] known
  | trailing {i known o rs known' t} (there : tokens[i]? = some t)
      (fails : Evaluates tokens (fail .trailing : Matcher Unit) i known o rs known') :
      Evaluates tokens atEnd i known o rs known'
  | stop {α β : Type} {p : Matcher α} {next : α → Matcher β} {i known f rs known'}
      (first : Evaluates tokens p i known (.failed f) rs known') :
      Evaluates tokens (p >>= next) i known (.failed f) rs known'
  | andThen {α β : Type} {p : Matcher α} {next : α → Matcher β} {i known a j rs known' o rs' known''}
      (first : Evaluates tokens p i known (.matched a j) rs known')
      (second : Evaluates tokens (next a) j known' o rs' known'') :
      Evaluates tokens (p >>= next) i known o (rs ++ rs') known''
  | found {α : Type} {p : Matcher α} {i known a j rs known'}
      (inner : Evaluates tokens p i known (.matched a j) rs known') :
      Evaluates tokens p.optional i known (.matched (some a) j) rs known'
  | missing {α : Type} {p : Matcher α} {i known f rs known'}
      (inner : Evaluates tokens p i known (.failed f) rs known') :
      Evaluates tokens p.optional i known (.matched none i) rs known'
  | many {α : Type} {p : Matcher α} {i known as j rs known'} (turns : Repetition tokens p i known as j rs known') :
      Evaluates tokens p.many i known (.matched as j) rs known'
  | onLine {α : Type} {r : Rule α} {line i known o rs known'} (here : ∀ t, tokens[i]? = some t → t.line = line)
      (inner : Evaluates tokens r.run i known o rs known') :
      Evaluates tokens (r.onLine line).run i known o rs known'
  | offLine {α : Type} {r : Rule α} {line i known o rs known' t} (there : tokens[i]? = some t) (off : t.line ≠ line)
      (declines : Evaluates tokens (decline (.offLine r.name line) : Matcher α) i known o rs known') :
      Evaluates tokens (r.onLine line).run i known o rs known'
  | exhausted {α : Type} {names before i known} : Evaluates tokens (Rule.firstOf names ([] : List (Rule α)) before) i
      known (.failed (Rule.exhausted names before.reverse tokens i)) [] known
  | chosen {α : Type} {names before i known a j rs known'} {r : Rule α} {rest : List (Rule α)}
      (inner : Evaluates tokens r.run i known (.matched a j) rs known') :
      Evaluates tokens (Rule.firstOf names (r :: rest) before) i known (.matched a j) rs known'
  | passed {α : Type} {names before i known f rs known' o rs' known''} {r : Rule α} {rest : List (Rule α)}
      (inner : Evaluates tokens r.run i known (.failed f) rs known')
      (others : Evaluates tokens (Rule.firstOf names rest (f :: before)) i known' o rs' known'') :
      Evaluates tokens (Rule.firstOf names (r :: rest) before) i known o (rs ++ rs') known''
  /-- A statement is a transition or a state that holds statements. -/
  | statement {i known o rs known'} (inner : Evaluates tokens (statementOf statement).run i known o rs known') :
      Evaluates tokens statement.run i known o rs known'

/-- The turns of a repetition, up to the end of the tokens, a failure or a turn that reads nothing. -/
inductive Repetition (tokens : Array Token) : {α : Type} → Matcher α → Nat → (known : Option Failure) → List α → Nat →
    List Failure → Option Failure → Prop where
  | spent {α : Type} {p : Matcher α} {i known} (h : tokens.size ≤ i) : Repetition tokens p i known [] i [] known
  | failed {α : Type} {p : Matcher α} {i known f rs known'} (inside : i < tokens.size)
      (last : Evaluates tokens p i known (.failed f) rs known') : Repetition tokens p i known [] i rs known'
  | idle {α : Type} {p : Matcher α} {i known a rs known'} (inside : i < tokens.size)
      (last : Evaluates tokens p i known (.matched a i) rs known') : Repetition tokens p i known [] i rs known'
  | turn {α : Type} {p : Matcher α} {i known a j rs known' as k rs' known''} (inside : i < tokens.size)
      (first : Evaluates tokens p i known (.matched a j) rs known') (reads : i < j)
      (rest : Repetition tokens p j known' as k rs' known'') :
      Repetition tokens p i known (a :: as) k (rs ++ rs') known''

end

end Grammar

open Grammar (Evaluates Repetition)

namespace Matcher

variable {α β : Type} {tokens : Array Token} {i : Nat}

/-- The run of a matcher at a position is an evaluation, whatever failed before, and stays inside the tokens. -/
structure Ends (p : Matcher α) (tokens : Array Token) (i : Nat) : Prop where
  evaluates : ∀ known, Evaluates tokens p i known (p tokens i).1 (p tokens i).2.failures ((p tokens i).2.furthest known)
  within : (p tokens i).1.Within i tokens.size

theorem ends_pure {a : α} (hi : i ≤ tokens.size) : (pure a : Matcher α).Ends tokens i :=
  ⟨fun _ => .done a, Nat.le_refl i, hi⟩

theorem ends_look (hi : i ≤ tokens.size) : look.Ends tokens i := ⟨fun _ => .look, Nat.le_refl i, hi⟩

theorem ends_remark {rs : List Remark} (hi : i ≤ tokens.size) : (remark rs).Ends tokens i :=
  ⟨fun _ => .remark, Nat.le_refl i, hi⟩

theorem ends_fail {reason : Diagnostic.Reason} (hi : i ≤ tokens.size) : (fail reason : Matcher α).Ends tokens i :=
  ⟨fun _ => .fail, Nat.le_refl i, hi⟩

theorem ends_decline {reason : Diagnostic.Reason} (hi : i ≤ tokens.size) :
    (decline reason : Matcher α).Ends tokens i := ⟨fun _ => .decline, Nat.le_refl i, hi⟩

theorem Ends.of_run {p : Matcher α} {run : Outcome α × Trace} (hrun : p tokens i = run)
    (hev : ∀ known, Evaluates tokens p i known run.1 run.2.failures (run.2.furthest known))
    (hin : run.1.Within i tokens.size) : p.Ends tokens i := by
  subst hrun
  exact ⟨hev, hin⟩

/-- A matcher ends where it runs as one that does, if it is evaluated as that one. -/
theorem Ends.of_eq {p q : Matcher α} (hq : q.Ends tokens i) (h : p tokens i = q tokens i)
    (as : ∀ {known o rs known'}, Evaluates tokens q i known o rs known' → Evaluates tokens p i known o rs known') :
    p.Ends tokens i := .of_run h (fun known => as (hq.evaluates known)) hq.within

theorem ends_expect {kind : TokenKind} (hi : i ≤ tokens.size) : (expect kind).Ends tokens i := by
  cases ht : tokens[i]? with
  | none =>
    have hrun : expect kind tokens i = fail (.wanted kind) tokens i := by simp only [expect, ht]
    exact (ends_fail hi).of_eq hrun (.noToken (by simp [ht]))
  | some t =>
    by_cases hk : t.kind = kind
    · have hrun : expect kind tokens i = (.matched t (i + 1), {}) := by simp only [expect, ht, if_pos hk]
      have hsize := (Array.getElem?_eq_some_iff.1 ht).1
      exact .of_run hrun (fun _ => .token ht hk) ⟨Nat.le_succ i, hsize⟩
    · have hrun : expect kind tokens i = fail (.wanted kind) tokens i := by simp only [expect, ht, if_neg hk]
      exact (ends_fail hi).of_eq hrun (.noToken (by simpa [ht] using hk))

theorem ends_atEnd (hi : i ≤ tokens.size) : atEnd.Ends tokens i := by
  cases ht : tokens[i]? with
  | none =>
    have hrun : atEnd tokens i = (.matched () i, {}) := by simp only [atEnd, ht]
    exact .of_run hrun (fun _ => .atEnd ht) ⟨Nat.le_refl i, hi⟩
  | some t =>
    have hrun : atEnd tokens i = fail .trailing tokens i := by simp only [atEnd, ht]
    exact (ends_fail hi).of_eq hrun (.trailing ht)

/-- **A sequence ends where its parts do**, the second from where the first stopped. -/
theorem Ends.bind {p : Matcher α} {next : α → Matcher β} (hp : p.Ends tokens i)
    (hnext : ∀ a j, p.Gives tokens i a j → i ≤ j → j ≤ tokens.size → (next a).Ends tokens j) :
    (p >>= next).Ends tokens i := by
  obtain ⟨hev, hin⟩ := hp
  rcases hrun : p tokens i with ⟨outcome, t⟩
  rw [hrun] at hev hin
  cases outcome with
  | unfit => exact hin.elim
  | failed f =>
    have hbind : (p >>= next) tokens i = (.failed f, t) := by simp only [Bind.bind, andThen, hrun]
    exact .of_run hbind (fun known => .stop (hev known)) hin
  | matched a j =>
    have hrest := hnext a j (congrArg Prod.fst hrun) hin.1 hin.2
    have hbind : (p >>= next) tokens i = ((next a tokens j).1, t ++ (next a tokens j).2) := by
      simp only [Bind.bind, andThen, hrun]
    refine .of_run hbind (fun known => ?_) (hrest.within.weaken hin.1)
    rw [Trace.failures_append, Trace.furthest_append]
    exact .andThen (hev known) (hrest.evaluates _)

theorem Ends.optional {p : Matcher α} (hi : i ≤ tokens.size) (hp : p.Ends tokens i) : p.optional.Ends tokens i := by
  obtain ⟨hev, hin⟩ := hp
  rcases hrun : p tokens i with ⟨outcome, t⟩
  rw [hrun] at hev hin
  cases outcome with
  | unfit => exact hin.elim
  | failed f =>
    have hopt : p.optional tokens i = (.matched none i, t) := by simp only [Matcher.optional, hrun]
    exact .of_run hopt (fun known => .missing (hev known)) ⟨Nat.le_refl i, hi⟩
  | matched a j =>
    have hopt : p.optional tokens i = (.matched (some a) j, t) := by simp only [Matcher.optional, hrun]
    exact .of_run hopt (fun known => .found (hev known)) hin

/-- **A repetition comes to an end**, and before the turns that are counted for it do: each turn that goes on reads a
token. -/
theorem repetition_of_ends {p : Matcher α} {lo : Nat} (hp : ∀ k, lo ≤ k → k < tokens.size → p.Ends tokens k) :
    ∀ (limit : Nat) {i : Nat}, lo ≤ i → i ≤ tokens.size → tokens.size - i ≤ limit →
      ∃ as k t, repeatUpTo p limit tokens i = (.matched as k, t) ∧ (i ≤ k ∧ k ≤ tokens.size) ∧
        ∀ known, Repetition tokens p i known as k t.failures (t.furthest known)
  | 0, i, _, hi, hlimit =>
    ⟨[], i, {}, rfl, ⟨Nat.le_refl i, hi⟩, fun _ => .spent (by omega)⟩
  | limit + 1, i, hlo, hi, hlimit => by
    unfold repeatUpTo
    by_cases hend : tokens.size ≤ i
    · rw [if_pos hend]
      exact ⟨[], i, {}, rfl, ⟨Nat.le_refl i, hi⟩, fun _ => .spent hend⟩
    · rw [if_neg hend]
      have inside : i < tokens.size := Nat.lt_of_not_le hend
      obtain ⟨hev, hin⟩ := hp i hlo inside
      rcases hrun : p tokens i with ⟨outcome, t⟩
      rw [hrun] at hev hin
      cases outcome with
      | unfit => exact hin.elim
      | failed f => exact ⟨[], i, t, rfl, ⟨Nat.le_refl i, hi⟩, fun known => .failed inside (hev known)⟩
      | matched a j =>
        by_cases hj : j = i
        · subst hj
          exact ⟨[], j, t, if_pos rfl, ⟨Nat.le_refl j, hi⟩, fun known => .idle inside (hev known)⟩
        · have hij : i < j := Nat.lt_of_le_of_ne hin.1 (Ne.symm hj)
          obtain ⟨as, k, t', hrest, hk, turns⟩ := repetition_of_ends hp limit (Nat.le_trans hlo hin.1) hin.2 (by omega)
          refine ⟨a :: as, k, t ++ t', ?_, ⟨Nat.le_trans hin.1 hk.1, hk.2⟩, fun known => ?_⟩
          · simp only [if_neg hj, hrest]
          · rw [Trace.failures_append, Trace.furthest_append]
            exact .turn inside (hev known) hij (turns _)

theorem ends_many {p : Matcher α} (hp : ∀ k, i ≤ k → k < tokens.size → p.Ends tokens k) (hi : i ≤ tokens.size) :
    p.many.Ends tokens i := by
  obtain ⟨as, k, t, hrun, hk, turns⟩ :=
    repetition_of_ends hp (tokens.size - i) (Nat.le_refl i) hi (Nat.le_refl _)
  exact @Ends.of_run _ _ _ p.many _ hrun (fun known => .many (turns known)) hk

end Matcher

namespace Rule

open Matcher (Ends)

variable {α β : Type} {tokens : Array Token} {i : Nat}

theorem ends_map {r : Rule α} {f : α → β} (h : r.run.Ends tokens i) : (r.map f).run.Ends tokens i :=
  h.bind fun _ _ _ _ hj => Matcher.ends_pure hj

theorem ends_onLine {r : Rule α} {line : Int} (hi : i ≤ tokens.size) (h : r.run.Ends tokens i) :
    (r.onLine line).run.Ends tokens i := by
  cases ht : tokens[i]? with
  | none =>
    have hrun : (r.onLine line).run tokens i = r.run tokens i := by simp only [onLine, ht]
    exact h.of_eq hrun (.onLine (by simp [ht]))
  | some t =>
    by_cases hl : t.line = line
    · have hrun : (r.onLine line).run tokens i = r.run tokens i := by simp only [onLine, ht, if_pos hl]
      exact h.of_eq hrun (.onLine (by simpa [ht] using hl))
    · have hrun : (r.onLine line).run tokens i = Matcher.decline (.offLine r.name line) tokens i := by
        simp only [onLine, ht, if_neg hl]
      exact (Matcher.ends_decline hi).of_eq hrun (.offLine ht hl)

/-- The failure of a choice lies where the furthest of its rules failed. -/
theorem within_exhausted {names : List Text} {failures : List Failure} (hi : i ≤ tokens.size)
    (h : ∀ f ∈ failures, i ≤ f.pos ∧ f.pos ≤ tokens.size) :
    i ≤ (exhausted names failures tokens i).pos ∧ (exhausted names failures tokens i).pos ≤ tokens.size := by
  rcases pos_exhausted names failures tokens i with ⟨-, hpos⟩ | ⟨f, hf, hpos, -⟩
  · rw [hpos]
    exact ⟨Nat.le_refl i, hi⟩
  · rw [hpos]
    exact h f hf

/-- **A choice ends where all its rules do.** -/
theorem ends_firstOf (names : List Text) (hi : i ≤ tokens.size) :
    ∀ (rules : List (Rule α)) (before : List Failure), (∀ r ∈ rules, r.run.Ends tokens i) →
      (∀ f ∈ before, i ≤ f.pos ∧ f.pos ≤ tokens.size) → (firstOf names rules before).Ends tokens i
  | [], before, _, hbefore => ⟨fun _ => .exhausted, within_exhausted hi (by simpa using hbefore)⟩
  | r :: rest, before, hrules, hbefore => by
    obtain ⟨hr, hrest⟩ := List.forall_mem_cons.1 hrules
    obtain ⟨hev, hin⟩ := hr
    rcases hrun : r.run tokens i with ⟨outcome, t⟩
    rw [hrun] at hev hin
    cases outcome with
    | unfit => exact hin.elim
    | matched a j =>
      have hfirst : firstOf names (r :: rest) before tokens i = (.matched a j, t) := by simp only [firstOf, hrun]
      exact .of_run hfirst (fun known => .chosen (hev known)) hin
    | failed f =>
      have others := ends_firstOf names hi rest (f :: before) hrest (List.forall_mem_cons.2 ⟨hin, hbefore⟩)
      have hfirst : firstOf names (r :: rest) before tokens i = ((firstOf names rest (f :: before) tokens i).1,
          t ++ (firstOf names rest (f :: before) tokens i).2) := by simp only [firstOf, hrun]
      refine .of_run hfirst (fun known => ?_) others.within
      rw [Trace.failures_append, Trace.furthest_append]
      exact .passed (hev known) (others.evaluates _)

theorem ends_oneOf {rules : List (Rule α)} (hi : i ≤ tokens.size) (h : ∀ r ∈ rules, r.run.Ends tokens i) :
    (oneOf rules).run.Ends tokens i := ends_firstOf _ hi rules [] h (by simp)

end Rule
end Statechart
