import Statechart.Proofs.Rule.Matches
/-!
# Faults — the failures that a matcher leaves

A failure is returned, or it is recorded on the way and then another rule is tried.  The failure to report may be of
either sort, so what is to hold of it has to hold of all of them (`Faults`).  Each combinator has one law, and only that
of a choice makes a failure of failures.
-/
namespace Statechart

open Diagnostic (Reason Report)

/-- Every failure returned or recorded by a run is one of `F`. -/
structure Leaves {α : Type} (run : Outcome α × Trace) (F : Failure → Prop) : Prop where
  returned : ∀ f, run.1 = .failed f → F f
  recorded : ∀ f ∈ run.2.failures, F f

namespace Leaves

variable {α : Type} {t t' : Trace} {F : Failure → Prop}

theorem of_failed {f : Failure} (hf : F f) (h : ∀ g ∈ t.failures, F g) :
    Leaves ((.failed f, t) : Outcome α × Trace) F := by
  refine ⟨fun g hg => ?_, h⟩
  cases hg
  exact hf

theorem of_matched {a : α} {j : Nat} (h : ∀ g ∈ t.failures, F g) : Leaves (.matched a j, t) F := ⟨nofun, h⟩

theorem of_unfit (h : ∀ g ∈ t.failures, F g) : Leaves ((.unfit, t) : Outcome α × Trace) F := ⟨nofun, h⟩

theorem append {outcome : Outcome α} (h : ∀ g ∈ t.failures, F g) (h' : Leaves (outcome, t') F) :
    Leaves (outcome, t ++ t') F :=
  ⟨h'.returned, fun g hg => (List.mem_append.1 hg).elim (h g) (h'.recorded g)⟩

end Leaves

namespace Matcher

variable {α β : Type} {tokens : Array Token} {i : Nat} {F : Failure → Prop}

/-- Every failure that the matcher returns or records at `i` is one of `F`. -/
def Faults (p : Matcher α) (tokens : Array Token) (i : Nat) (F : Failure → Prop) : Prop := Leaves (p tokens i) F

theorem Faults.not_fails {p : Matcher α} (h : p.Faults tokens i fun _ => False) : ¬ p.Fails tokens i := by
  rintro ⟨f, hf⟩
  exact h.returned f hf

theorem faults_pure {a : α} : (pure a : Matcher α).Faults tokens i F := ⟨nofun, nofun⟩

theorem faults_unfit : (unfit : Matcher α).Faults tokens i F := ⟨nofun, nofun⟩

theorem faults_look : look.Faults tokens i F := ⟨nofun, nofun⟩

theorem faults_remark {rs : List Remark} : (remark rs).Faults tokens i F := ⟨nofun, nofun⟩

theorem faults_fail {reason : Reason} (h : F ⟨.plain (Report.on reason tokens[i]?), i⟩) :
    (fail reason : Matcher α).Faults tokens i F :=
  .of_failed h fun _ hg => List.mem_singleton.1 hg ▸ h

theorem faults_decline {reason : Reason} (h : F ⟨.plain (Report.on reason tokens[i]?), i⟩) :
    (decline reason : Matcher α).Faults tokens i F := .of_failed h nofun

theorem faults_expect {kind : TokenKind} (h : F ⟨.plain (Report.on (.wanted kind) tokens[i]?), i⟩) :
    (expect kind).Faults tokens i F := by
  unfold Faults expect
  split
  · exact faults_fail h
  · split
    · exact ⟨nofun, nofun⟩
    · exact faults_fail h

theorem faults_atEnd (h : F ⟨.plain (Report.on .trailing tokens[i]?), i⟩) : atEnd.Faults tokens i F := by
  unfold Faults atEnd
  split
  · exact ⟨nofun, nofun⟩
  · exact faults_fail h

/-- **A sequence leaves the failures of its parts**, the second from where the first stopped. -/
theorem Faults.bind {p : Matcher α} {next : α → Matcher β} (hp : p.Faults tokens i F)
    (hnext : ∀ a j, p.Gives tokens i a j → (next a).Faults tokens j F) : (p >>= next).Faults tokens i F := by
  show Leaves (andThen p next tokens i) F
  unfold andThen
  rcases hrun : p tokens i with ⟨outcome, t⟩
  rw [Faults, hrun] at hp
  cases outcome with
  | failed e => exact .of_failed (hp.returned e rfl) hp.recorded
  | unfit => exact .of_unfit hp.recorded
  | matched a j => exact .append hp.recorded (hnext a j (congrArg Prod.fst hrun))

theorem Faults.optional {p : Matcher α} (hp : p.Faults tokens i F) : p.optional.Faults tokens i F := by
  unfold Faults Matcher.optional
  rcases hrun : p tokens i with ⟨outcome, t⟩
  rw [Faults, hrun] at hp
  cases outcome with
  | unfit => exact .of_unfit hp.recorded
  | failed e => exact .of_matched hp.recorded
  | matched a j => exact .of_matched hp.recorded

/-- **A repetition leaves the failures of its turns**; each turn begins where `I` holds. -/
theorem faults_repeatUpTo {p : Matcher α} {I : Nat → Prop} (hp : ∀ j, I j → p.Faults tokens j F)
    (keeps : ∀ j a k, I j → p.Gives tokens j a k → I k) :
    ∀ {limit i}, I i → (repeatUpTo p limit).Faults tokens i F
  | 0, _, _ => faults_pure
  | limit + 1, i, hi => by
    have first := hp i hi
    unfold Faults repeatUpTo
    split
    · exact .of_matched (List.forall_mem_nil _)
    · rcases hrun : p tokens i with ⟨outcome, t⟩
      rw [Faults, hrun] at first
      cases outcome with
      | failed e => exact .of_matched first.recorded
      | unfit => exact .of_unfit first.recorded
      | matched a j =>
        have later : (repeatUpTo p limit).Faults tokens j F :=
          faults_repeatUpTo hp keeps (keeps i a j hi (congrArg Prod.fst hrun))
        simp only
        split
        · exact .of_matched first.recorded
        · rcases hrest : repeatUpTo p limit tokens j with ⟨outcome, t'⟩
          rw [Faults, hrest] at later
          have both := later.append first.recorded
          cases outcome with
          | matched as k => exact .of_matched both.recorded
          | failed e => exact .of_failed (later.returned e rfl) both.recorded
          | unfit => exact .of_unfit both.recorded

theorem faults_many {p : Matcher α} {I : Nat → Prop} (hp : ∀ j, I j → p.Faults tokens j F)
    (keeps : ∀ j a k, I j → p.Gives tokens j a k → I k) (hi : I i) : p.many.Faults tokens i F := by
  have h : (repeatUpTo p (tokens.size - i)).Faults tokens i F := faults_repeatUpTo hp keeps hi
  exact h

end Matcher

namespace Rule

open Matcher (Faults)

variable {α β : Type} {tokens : Array Token} {i : Nat} {F : Failure → Prop}

theorem faults_map {r : Rule α} {f : α → β} (h : r.run.Faults tokens i F) : (r.map f).run.Faults tokens i F :=
  h.bind fun _ _ _ => Matcher.faults_pure

theorem faults_onLine {r : Rule α} {line : Int} (h : r.run.Faults tokens i F)
    (hdecline : F ⟨.plain (Report.on (.offLine r.name line) tokens[i]?), i⟩) :
    (r.onLine line).run.Faults tokens i F := by
  show Leaves ((r.onLine line).run tokens i) F
  unfold onLine
  simp only
  split
  · exact h
  · split
    · exact h
    · exact Matcher.faults_decline hdecline

/-- **A choice leaves the failures of its rules**, and the one made of those that they returned. -/
theorem faults_firstOf {names : List Text}
    (hchoice : ∀ failures, (∀ f ∈ failures, F f) → F (exhausted names failures tokens i)) :
    ∀ {rules : List (Rule α)} {before : List Failure}, (∀ r ∈ rules, r.run.Faults tokens i F) →
      (∀ f ∈ before, F f) → (firstOf names rules before).Faults tokens i F
  | [], before, _, hbefore => .of_failed (hchoice _ fun f hf => hbefore f (List.mem_reverse.1 hf)) (List.forall_mem_nil _)
  | r :: rules, before, hrules, hbefore => by
    obtain ⟨hr, hrest⟩ := List.forall_mem_cons.1 hrules
    unfold Faults firstOf
    rcases hrun : r.run tokens i with ⟨outcome, t⟩
    rw [Faults, hrun] at hr
    cases outcome with
    | matched a j => exact .of_matched hr.recorded
    | unfit => exact .of_unfit hr.recorded
    | failed f =>
      have hothers : (firstOf names rules (f :: before)).Faults tokens i F :=
        faults_firstOf hchoice hrest (List.forall_mem_cons.2 ⟨hr.returned f rfl, hbefore⟩)
      exact .append hr.recorded hothers

theorem faults_oneOf {rules : List (Rule α)} (h : ∀ r ∈ rules, r.run.Faults tokens i F)
    (hchoice : ∀ names failures, (∀ f ∈ failures, F f) → F (exhausted names failures tokens i)) :
    (oneOf rules).run.Faults tokens i F := faults_firstOf (hchoice _) h (List.forall_mem_nil _)

theorem faults_oneOf_pair {r s : Rule α} (hr : r.run.Faults tokens i F) (hs : s.run.Faults tokens i F)
    (hchoice : ∀ names failures, (∀ f ∈ failures, F f) → F (exhausted names failures tokens i)) :
    (oneOf [r, s]).run.Faults tokens i F :=
  faults_oneOf (List.forall_mem_cons.2 ⟨hr, List.forall_mem_singleton.2 hs⟩) hchoice

end Rule
end Statechart
