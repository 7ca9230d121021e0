import Statechart.Proofs.Rule.Matches
/-!
# Told — what a matcher remarks on

What a matcher remarks on is kept whatever comes of the match: a sequence adds the remarks of its parts up to the one
that fails, and a choice those of all the rules it tried.  So the remarks of a rule that is abandoned would stay.  Most
rules are quiet: they remark on nothing at any position, whether they match there or not.
-/
namespace Statechart
namespace Matcher

variable {α β : Type} {tokens : Array Token} {i j : Nat}

/-- What a matcher remarks on at a position. -/
def told (p : Matcher α) (tokens : Array Token) (i : Nat) : List Remark := (p tokens i).2.remarks

/-- The matcher remarks on nothing. -/
def Quiet (p : Matcher α) : Prop := ∀ tokens i, p.told tokens i = []

/-! ## Sequences and repetitions -/

theorem Gives.told_bind {p : Matcher α} {next : α → Matcher β} {a : α} (h : p.Gives tokens i a j) :
    (p >>= next).told tokens i = p.told tokens i ++ (next a).told tokens j := by
  show (andThen p next tokens i).2.remarks = _
  unfold told andThen
  rcases hp : p tokens i with ⟨outcome, t⟩
  rw [Gives, hp] at h
  subst h
  rfl

theorem Fails.told_bind {p : Matcher α} {next : α → Matcher β} (h : p.Fails tokens i) :
    (p >>= next).told tokens i = p.told tokens i := by
  obtain ⟨f, hf⟩ := h
  show (andThen p next tokens i).2.remarks = _
  unfold told andThen
  rcases hp : p tokens i with ⟨outcome, t⟩
  rw [hp] at hf
  subst hf
  rfl

theorem told_optional (p : Matcher α) : p.optional.told tokens i = p.told tokens i := by
  unfold told optional
  rcases hp : p tokens i with ⟨outcome, t⟩
  cases outcome <;> rfl

/-- **A repetition is not cut short** by a limit of as many matches as there are tokens left. -/
theorem repeatUpTo_eq {p : Matcher α} (forward : ∀ {k a k'}, p.Gives tokens k a k' → k ≤ k') :
    ∀ {limit limit' i : Nat}, tokens.size - i ≤ limit → tokens.size - i ≤ limit' →
      repeatUpTo p limit tokens i = repeatUpTo p limit' tokens i
  | 0, 0, _, _, _ => rfl
  | 0, limit' + 1, i, h, _ => by
    unfold repeatUpTo
    rw [if_pos (by omega)]
    rfl
  | limit + 1, 0, i, _, h' => by
    unfold repeatUpTo
    rw [if_pos (by omega)]
    rfl
  | limit + 1, limit' + 1, i, h, h' => by
    unfold repeatUpTo
    by_cases hend : tokens.size ≤ i
    · rw [if_pos hend, if_pos hend]
    · rw [if_neg hend, if_neg hend]
      rcases hp : p tokens i with ⟨outcome, t⟩
      cases outcome with
      | failed f => rfl
      | unfit => rfl
      | matched a j =>
        have hij : i ≤ j := forward (congrArg Prod.fst hp)
        by_cases hj : j = i
        · simp only [hj, ↓reduceIte]
        · simp only [hj, ↓reduceIte]
          rw [repeatUpTo_eq forward (by omega : tokens.size - j ≤ limit) (by omega : tokens.size - j ≤ limit')]

theorem Gives.told_repeatUpTo {p : Matcher α} {a : α} (h : p.Gives tokens i a j) (inside : i < tokens.size)
    (moves : i < j) (limit : Nat) :
    (repeatUpTo p (limit + 1)).told tokens i = p.told tokens i ++ (repeatUpTo p limit).told tokens j := by
  simp only [told, repeatUpTo, if_neg (Nat.not_le_of_lt inside)]
  rcases hp : p tokens i with ⟨outcome, t⟩
  rw [Gives, hp] at h
  subst h
  simp only
  rw [if_neg (Nat.ne_of_gt moves)]
  rcases hq : repeatUpTo p limit tokens j with ⟨outcome, t'⟩
  cases outcome <;> rfl

/-- **A match and the repetition behind it.** -/
theorem Gives.told_many {p : Matcher α} {a : α} (forward : ∀ {k a k'}, p.Gives tokens k a k' → k ≤ k')
    (h : p.Gives tokens i a j) (inside : i < tokens.size) (moves : i < j) :
    p.many.told tokens i = p.told tokens i ++ p.many.told tokens j := by
  obtain ⟨limit, hlimit⟩ : ∃ limit, tokens.size - i = limit + 1 := ⟨tokens.size - i - 1, by omega⟩
  have hfirst : p.many.told tokens i = (repeatUpTo p (limit + 1)).told tokens i := by
    unfold told many
    rw [hlimit]
  have hrest : p.many.told tokens j = (repeatUpTo p limit).told tokens j := by
    unfold told many
    rw [repeatUpTo_eq forward (Nat.le_refl _) (by omega : tokens.size - j ≤ limit)]
  rw [hfirst, hrest, h.told_repeatUpTo inside moves]

theorem Fails.told_many {p : Matcher α} (h : p.Fails tokens i) (hp : p.told tokens i = []) :
    p.many.told tokens i = [] := by
  obtain ⟨f, hf⟩ := h
  unfold told many
  cases tokens.size - i with
  | zero => rfl
  | succ limit =>
    unfold repeatUpTo
    by_cases hend : tokens.size ≤ i
    · rw [if_pos hend]
    · rw [if_neg hend]
      unfold told at hp
      rcases hrun : p tokens i with ⟨outcome, t⟩
      rw [hrun] at hf hp
      subst hf
      exact hp

/-! ## Quiet matchers -/

theorem quiet_pure (a : α) : (pure a : Matcher α).Quiet := fun _ _ => rfl

theorem quiet_look : look.Quiet := fun _ _ => rfl

theorem quiet_fail (reason : Diagnostic.Reason) : (fail reason : Matcher α).Quiet := fun _ _ => rfl

theorem quiet_unfit : (unfit : Matcher α).Quiet := fun _ _ => rfl

theorem quiet_expect (kind : TokenKind) : (expect kind).Quiet := by
  intro tokens i
  unfold told expect
  split
  · rfl
  · split <;> rfl

theorem quiet_atEnd : atEnd.Quiet := by
  intro tokens i
  unfold told atEnd
  split <;> rfl

theorem Quiet.bind {p : Matcher α} {next : α → Matcher β} (hp : p.Quiet) (hnext : ∀ a, (next a).Quiet) :
    (p >>= next).Quiet := by
  intro tokens i
  have hp := hp tokens i
  show (andThen p next tokens i).2.remarks = []
  unfold told at hp
  unfold andThen
  rcases hrun : p tokens i with ⟨outcome, t⟩
  rw [hrun] at hp
  cases outcome with
  | failed f => exact hp
  | unfit => exact hp
  | matched a j => exact List.append_eq_nil_iff.2 ⟨hp, hnext a tokens j⟩

theorem Quiet.optional {p : Matcher α} (hp : p.Quiet) : p.optional.Quiet :=
  fun tokens i => (told_optional p).trans (hp tokens i)

theorem quiet_repeatUpTo {p : Matcher α} (hp : p.Quiet) : ∀ limit, (repeatUpTo p limit).Quiet
  | 0 => quiet_pure []
  | limit + 1 => by
    intro tokens i
    have hp := hp tokens i
    unfold told at hp ⊢
    unfold repeatUpTo
    split
    · rfl
    · split
      · rename_i hrun
        rwa [hrun] at hp
      · rename_i hrun
        rwa [hrun] at hp
      · rename_i a j t hrun
        rw [hrun] at hp
        split
        · exact hp
        · have hrest := quiet_repeatUpTo ‹p.Quiet› limit tokens j
          unfold told at hrest
          split <;>
          · rename_i hrun'
            rw [hrun'] at hrest
            exact List.append_eq_nil_iff.2 ⟨hp, hrest⟩

theorem Quiet.many {p : Matcher α} (hp : p.Quiet) : p.many.Quiet :=
  fun tokens i => quiet_repeatUpTo hp (tokens.size - i) tokens i

end Matcher

namespace Rule

open Matcher (Gives Fails Quiet)

variable {α β : Type} {tokens : Array Token} {i j : Nat}

theorem told_map (r : Rule α) (f : α → β) : (r.map f).run.told tokens i = r.run.told tokens i := by
  show (Matcher.andThen r.run _ tokens i).2.remarks = _
  unfold Matcher.told Matcher.andThen
  rcases hr : r.run tokens i with ⟨outcome, t⟩
  cases outcome with
  | failed f => rfl
  | unfit => rfl
  | matched a j => exact List.append_nil t.remarks

theorem quiet_map {r : Rule α} (h : r.run.Quiet) (f : α → β) : (r.map f).run.Quiet :=
  fun tokens i => (told_map r f).trans (h tokens i)

theorem quiet_onLine {r : Rule α} (h : r.run.Quiet) (line : Int) : (r.onLine line).run.Quiet := by
  intro tokens i
  have hr := h tokens i
  unfold Matcher.told at hr ⊢
  unfold onLine
  simp only
  split
  · exact hr
  · split
    · exact hr
    · rfl

/-- **Of two rules the second is not tried where the first matches.** -/
theorem told_oneOf_of_gives {r s : Rule α} {a : α} (h : r.run.Gives tokens i a j) :
    (oneOf [r, s]).run.told tokens i = r.run.told tokens i := by
  unfold oneOf Matcher.told
  simp only [firstOf]
  rcases hr : r.run tokens i with ⟨outcome, t⟩
  rw [Gives, hr] at h
  subst h
  rfl

/-- **What the first of two rules told before it failed stays.** -/
theorem told_oneOf_of_fails {r s : Rule α} (h : r.run.Fails tokens i) :
    (oneOf [r, s]).run.told tokens i = r.run.told tokens i ++ s.run.told tokens i := by
  obtain ⟨f, hf⟩ := h
  unfold oneOf Matcher.told
  simp only [firstOf]
  rcases hr : r.run tokens i with ⟨outcome, t⟩
  rw [hr] at hf
  subst hf
  rcases hs : s.run tokens i with ⟨outcome', t'⟩
  cases outcome' with
  | matched b k => rfl
  | unfit => rfl
  | failed g =>
    show t.remarks ++ (t'.remarks ++ []) = _
    rw [List.append_nil]

end Rule
end Statechart
