import Statechart.Rule.Basic
/-!
# Matches — what a matcher reads, without its trace

Of a run of a matcher these modules ask two things: what it gives and up to where it reads (`Gives`), or that it finds
no match and another rule may be tried (`Fails`).  Each combinator has one law for either.  A repetition is a chain of
matches (`Repeats`) that ends where there is no further match.
-/
namespace Statechart
namespace Matcher

variable {α β : Type} {tokens : Array Token} {i j k : Nat}

/-- The matcher reads the tokens from `i` up to `j` and gives `a`. -/
def Gives (p : Matcher α) (tokens : Array Token) (i : Nat) (a : α) (j : Nat) : Prop :=
  (p tokens i).1 = .matched a j

/-- The matcher finds no match at `i`. -/
def Fails (p : Matcher α) (tokens : Array Token) (i : Nat) : Prop := ∃ f, (p tokens i).1 = .failed f

/-- **A matcher gives one thing.** -/
theorem Gives.unique {p : Matcher α} {a b : α} (h : p.Gives tokens i a j) (h' : p.Gives tokens i b k) :
    a = b ∧ j = k := by
  rw [Gives, h, Outcome.matched.injEq] at h'
  exact h'

theorem Gives.not_fails {p : Matcher α} {a : α} (h : p.Gives tokens i a j) : ¬ p.Fails tokens i := by
  rintro ⟨f, hf⟩
  rw [h] at hf
  cases hf

@[simp] theorem gives_pure {a b : α} : (pure a : Matcher α).Gives tokens i b j ↔ a = b ∧ i = j := by
  show Outcome.matched a i = .matched b j ↔ _
  rw [Outcome.matched.injEq]

@[simp] theorem not_fails_pure {a : α} : ¬ (pure a : Matcher α).Fails tokens i := by
  rintro ⟨f, hf⟩
  cases hf

/-- **A sequence gives what its second part gives** from where the first stopped. -/
@[simp] theorem gives_bind {p : Matcher α} {f : α → Matcher β} {b : β} :
    (p >>= f).Gives tokens i b k ↔ ∃ a j, p.Gives tokens i a j ∧ (f a).Gives tokens j b k := by
  show (andThen p f tokens i).1 = _ ↔ _
  unfold andThen Gives
  rcases hp : p tokens i with ⟨outcome, t⟩
  cases outcome with
  | matched a j =>
    simp only [Outcome.matched.injEq]
    exact ⟨fun h => ⟨a, j, ⟨rfl, rfl⟩, h⟩, fun ⟨_, _, ⟨ha, hj⟩, h⟩ => ha ▸ hj ▸ h⟩
  | failed e => simp
  | unfit => simp

/-- **A sequence fails where its first part fails, or its second behind it.** -/
@[simp] theorem fails_bind {p : Matcher α} {f : α → Matcher β} :
    (p >>= f).Fails tokens i ↔ p.Fails tokens i ∨ ∃ a j, p.Gives tokens i a j ∧ (f a).Fails tokens j := by
  show (∃ e, (andThen p f tokens i).1 = .failed e) ↔ _
  unfold andThen Gives Fails
  rcases hp : p tokens i with ⟨outcome, t⟩
  cases outcome with
  | matched a j =>
    simp only [Outcome.matched.injEq, reduceCtorEq, exists_false, false_or]
    exact ⟨fun h => ⟨a, j, ⟨rfl, rfl⟩, h⟩, fun ⟨_, _, ⟨ha, hj⟩, h⟩ => ha ▸ hj ▸ h⟩
  | failed e => simp
  | unfit => simp

/-- **A sequence goes on failing or not where its first part stopped.** -/
theorem Gives.fails_bind_iff {p : Matcher α} {f : α → Matcher β} {a : α} (h : p.Gives tokens i a j) :
    (p >>= f).Fails tokens i ↔ (f a).Fails tokens j := by
  rw [fails_bind]
  constructor
  · rintro (hp | ⟨b, k, hb, hf⟩)
    · exact absurd hp h.not_fails
    · obtain ⟨rfl, rfl⟩ := h.unique hb
      exact hf
  · intro hf
    exact .inr ⟨a, j, h, hf⟩

theorem not_fails_bind {p : Matcher α} {f : α → Matcher β} (h : ¬ p.Fails tokens i)
    (hf : ∀ a j, p.Gives tokens i a j → ¬ (f a).Fails tokens j) : ¬ (p >>= f).Fails tokens i := by
  rw [fails_bind]
  rintro (hp | ⟨a, j, ha, hfa⟩)
  · exact h hp
  · exact hf a j ha hfa

@[simp] theorem not_fails_unfit : ¬ (unfit : Matcher α).Fails tokens i := by
  rintro ⟨f, hf⟩
  cases hf

@[simp] theorem gives_look {o : Option Token} : look.Gives tokens i o j ↔ tokens[i]? = o ∧ i = j := by
  show Outcome.matched tokens[i]? i = .matched o j ↔ _
  rw [Outcome.matched.injEq]

@[simp] theorem not_gives_fail {reason : Diagnostic.Reason} {a : α} :
    ¬ (fail reason : Matcher α).Gives tokens i a j := by
  intro h
  cases h

@[simp] theorem fails_fail {reason : Diagnostic.Reason} : (fail reason : Matcher α).Fails tokens i :=
  ⟨_, rfl⟩

@[simp] theorem not_gives_unfit {a : α} : ¬ (unfit : Matcher α).Gives tokens i a j := by
  intro h
  cases h

@[simp] theorem gives_remark {rs : List Remark} {u : Unit} : (remark rs).Gives tokens i u j ↔ i = j := by
  show Outcome.matched () i = .matched u j ↔ _
  simp

/-- **One token of its kind** is what `expect` gives. -/
@[simp] theorem gives_expect {kind : TokenKind} {t : Token} :
    (expect kind).Gives tokens i t j ↔ tokens[i]? = some t ∧ t.kind = kind ∧ j = i + 1 := by
  unfold Gives expect
  cases h : tokens[i]? with
  | none => simp [fail]
  | some u =>
    by_cases hk : u.kind = kind
    · simp only [hk, ↓reduceIte, Outcome.matched.injEq, Option.some.injEq]
      constructor
      · rintro ⟨rfl, rfl⟩
        exact ⟨rfl, hk, rfl⟩
      · rintro ⟨rfl, -, rfl⟩
        exact ⟨rfl, rfl⟩
    · simp only [hk, ↓reduceIte, fail, reduceCtorEq, Option.some.injEq, false_iff]
      rintro ⟨rfl, hk', -⟩
      exact hk hk'

@[simp] theorem fails_expect {kind : TokenKind} :
    (expect kind).Fails tokens i ↔ ∀ t, tokens[i]? = some t → t.kind ≠ kind := by
  unfold Fails expect
  cases h : tokens[i]? with
  | none => simp [fail]
  | some u => by_cases hk : u.kind = kind <;> simp [hk, fail]

@[simp] theorem gives_atEnd {u : Unit} : atEnd.Gives tokens i u j ↔ tokens[i]? = none ∧ i = j := by
  unfold Gives atEnd
  cases h : tokens[i]? with
  | none => simp
  | some t => simp [fail]

/-- **An option gives a match if there is one.** -/
theorem gives_optional {p : Matcher α} {o : Option α} :
    p.optional.Gives tokens i o j ↔
      (∃ a, o = some a ∧ p.Gives tokens i a j) ∨ (o = none ∧ i = j ∧ p.Fails tokens i) := by
  simp only [optional, Gives, Fails]
  rcases hp : p tokens i with ⟨outcome, t⟩
  cases outcome with
  | matched a k => cases o <;> simp
  | failed e => cases o <;> simp
  | unfit => simp

@[simp] theorem not_fails_optional {p : Matcher α} : ¬ p.optional.Fails tokens i := by
  simp only [optional, Fails]
  rcases hp : p tokens i with ⟨outcome, t⟩
  cases outcome with
  | matched a k => simp
  | failed e => simp
  | unfit => simp

/-- Matches one behind another, each of which reads a token. -/
inductive Repeats (p : Matcher α) (tokens : Array Token) : Nat → List α → Nat → Prop where
  | nil (i : Nat) : Repeats p tokens i [] i
  | cons {i j k : Nat} {a : α} {as : List α} (first : p.Gives tokens i a j) (inside : i < tokens.size) (moves : i < j)
      (rest : Repeats p tokens j as k) : Repeats p tokens i (a :: as) k

theorem repeats_of_gives_repeatUpTo {p : Matcher α} (forward : ∀ {i a j}, p.Gives tokens i a j → i ≤ j) :
    ∀ {limit i as k}, (repeatUpTo p limit).Gives tokens i as k → Repeats p tokens i as k
  | 0, i, as, k, h => by
    obtain ⟨rfl, rfl⟩ := gives_pure.1 h
    exact .nil i
  | limit + 1, i, as, k, h => by
    unfold Gives repeatUpTo at h
    split at h
    · obtain ⟨rfl, rfl⟩ := Outcome.matched.inj h
      exact .nil i
    · rename_i hi
      rcases hp : p tokens i with ⟨outcome, t⟩
      rw [hp] at h
      cases outcome with
      | failed e =>
        obtain ⟨rfl, rfl⟩ := Outcome.matched.inj h
        exact .nil i
      | unfit => cases h
      | matched a j =>
        have hij : i ≤ j := forward (congrArg Prod.fst hp)
        simp only at h
        split at h
        · obtain ⟨rfl, rfl⟩ := Outcome.matched.inj h
          exact .nil i
        · rename_i hne
          rcases hr : repeatUpTo p limit tokens j with ⟨outcome, t'⟩
          rw [hr] at h
          cases outcome with
          | failed e => cases h
          | unfit => cases h
          | matched as' k' =>
            obtain ⟨rfl, rfl⟩ := Outcome.matched.inj h
            exact .cons (congrArg Prod.fst hp) (by omega) (by omega)
              (repeats_of_gives_repeatUpTo forward (congrArg Prod.fst hr))

/-- **A repetition gives a chain of matches.** -/
theorem repeats_of_gives_many {p : Matcher α} {as : List α} (forward : ∀ {i a j}, p.Gives tokens i a j → i ≤ j)
    (h : p.many.Gives tokens i as k) : Repeats p tokens i as k :=
  @repeats_of_gives_repeatUpTo _ _ _ forward (tokens.size - i) _ _ _ h

theorem gives_repeatUpTo_of_repeats {p : Matcher α} {as : List α} (h : Repeats p tokens i as k)
    (stop : tokens.size ≤ k ∨ p.Fails tokens k) :
    ∀ {limit}, tokens.size - i ≤ limit → (repeatUpTo p limit).Gives tokens i as k := by
  induction h with
  | nil i =>
    intro limit hl
    cases limit with
    | zero => exact gives_pure.2 ⟨rfl, rfl⟩
    | succ limit =>
      unfold Gives repeatUpTo
      split
      · rfl
      · obtain ⟨f, hf⟩ := stop.resolve_left (by omega)
        rcases hp : p tokens i with ⟨outcome, t⟩
        rw [hp] at hf
        subst hf
        rfl
  | @cons i j k a as first inside moves rest ih =>
    intro limit hl
    cases limit with
    | zero => omega
    | succ limit =>
      have hr : (repeatUpTo p limit).Gives tokens j as k := ih stop (by omega)
      unfold Gives repeatUpTo
      rw [if_neg (by omega)]
      rcases hp : p tokens i with ⟨outcome, t⟩
      rw [Gives, hp] at first
      subst first
      simp only
      rw [if_neg (by omega)]
      rcases hq : repeatUpTo p limit tokens j with ⟨outcome, t'⟩
      rw [Gives, hq] at hr
      subst hr
      rfl

/-- **A chain that ends where there is no match is what a repetition gives.** -/
theorem gives_many_of_repeats {p : Matcher α} {as : List α} (h : Repeats p tokens i as k)
    (stop : tokens.size ≤ k ∨ p.Fails tokens k) : p.many.Gives tokens i as k :=
  gives_repeatUpTo_of_repeats h stop (Nat.le_refl _)

theorem not_fails_repeatUpTo {p : Matcher α} : ∀ {limit i}, ¬ (repeatUpTo p limit).Fails tokens i
  | 0, i => not_fails_pure
  | limit + 1, i => by
    rintro ⟨f, hf⟩
    unfold repeatUpTo at hf
    split at hf
    · cases hf
    · split at hf
      · cases hf
      · cases hf
      · rename_i a j t hp
        split at hf
        · cases hf
        · split at hf
          · cases hf
          · rename_i e t' hr
            exact not_fails_repeatUpTo ⟨e, congrArg Prod.fst hr⟩
          · cases hf

/-- **A repetition never fails.** -/
@[simp] theorem not_fails_many {p : Matcher α} : ¬ p.many.Fails tokens i := not_fails_repeatUpTo

/-- What each match keeps, a chain of them keeps. -/
theorem Repeats.keeps {p : Matcher α} {as : List α} {I : Nat → Prop}
    (hp : ∀ j a k, I j → p.Gives tokens j a k → I k) (h : Repeats p tokens i as k) (hi : I i) : I k := by
  induction h with
  | nil i => exact hi
  | cons first inside moves rest ih => exact ih (hp _ _ _ hi first)

theorem Repeats.mono {p q : Matcher α} {as : List α} (hpq : ∀ {i a j}, p.Gives tokens i a j → q.Gives tokens i a j)
    (h : Repeats p tokens i as k) : Repeats q tokens i as k := by
  induction h with
  | nil i => exact .nil i
  | cons first inside moves rest ih => exact .cons (hpq first) inside moves ih

end Matcher

namespace Rule

open Matcher (Gives Fails)

variable {α β : Type} {tokens : Array Token} {i j : Nat}

theorem gives_map {r : Rule α} {f : α → β} {b : β} :
    (r.map f).run.Gives tokens i b j ↔ ∃ a, r.run.Gives tokens i a j ∧ f a = b := by
  simp only [map, Matcher.gives_bind, Matcher.gives_pure]
  constructor
  · rintro ⟨a, _, h, hb, rfl⟩
    exact ⟨a, h, hb⟩
  · rintro ⟨a, h, hb⟩
    exact ⟨a, j, h, hb, rfl⟩

@[simp] theorem fails_map {r : Rule α} {f : α → β} : (r.map f).run.Fails tokens i ↔ r.run.Fails tokens i := by
  simp only [map, Matcher.fails_bind, Matcher.not_fails_pure, and_false, exists_false, or_false]

@[simp] theorem gives_onLine {r : Rule α} {line : Int} {a : α} :
    (r.onLine line).run.Gives tokens i a j ↔ (∀ t, tokens[i]? = some t → t.line = line) ∧ r.run.Gives tokens i a j := by
  unfold onLine Gives
  cases h : tokens[i]? with
  | none => simp [h]
  | some t => by_cases hl : t.line = line <;> simp [h, hl, Matcher.decline]

@[simp] theorem fails_onLine {r : Rule α} {line : Int} :
    (r.onLine line).run.Fails tokens i ↔ (∃ t, tokens[i]? = some t ∧ t.line ≠ line) ∨ r.run.Fails tokens i := by
  unfold onLine Fails
  cases h : tokens[i]? with
  | none => simp [h]
  | some t => by_cases hl : t.line = line <;> simp [h, hl, Matcher.decline]

/-- **Of two rules the second gives something only where the first fails.** -/
theorem gives_oneOf_pair {r s : Rule α} {a : α} :
    (oneOf [r, s]).run.Gives tokens i a j ↔
      r.run.Gives tokens i a j ∨ r.run.Fails tokens i ∧ s.run.Gives tokens i a j := by
  unfold oneOf Gives Fails
  simp only [firstOf]
  rcases hr : r.run tokens i with ⟨outcome, t⟩
  cases outcome with
  | matched b k => simp
  | unfit => simp
  | failed e =>
    rcases hs : s.run tokens i with ⟨outcome', t'⟩
    cases outcome' <;> simp

theorem fails_oneOf_pair {r s : Rule α} :
    (oneOf [r, s]).run.Fails tokens i ↔ r.run.Fails tokens i ∧ s.run.Fails tokens i := by
  unfold oneOf Fails
  simp only [firstOf]
  rcases hr : r.run tokens i with ⟨outcome, t⟩
  cases outcome with
  | matched b k => simp
  | unfit => simp
  | failed e =>
    rcases hs : s.run tokens i with ⟨outcome', t'⟩
    cases outcome' <;> simp

/-- **A choice fails where the furthest of its rules failed**, and one of no rules where it stands. -/
theorem pos_exhausted (names : List Text) (failures : List Failure) (tokens : Array Token) (i : Nat) :
    (failures = [] ∧ (exhausted names failures tokens i).pos = i) ∨
      ∃ f ∈ failures, (exhausted names failures tokens i).pos = f.pos ∧ ∀ g ∈ failures, g.pos ≤ f.pos := by
  unfold exhausted
  cases hmax : (failures.map Failure.pos).max? with
  | none =>
    rw [List.max?_eq_none_iff, List.map_eq_nil_iff] at hmax
    exact .inl ⟨hmax, rfl⟩
  | some m =>
    obtain ⟨hm, hall⟩ := List.max?_eq_some_iff.1 hmax
    obtain ⟨f, hf, rfl⟩ := List.mem_map.1 hm
    exact .inr ⟨f, hf, rfl, fun g hg => hall _ (List.mem_map_of_mem hg)⟩

end Rule
end Statechart
